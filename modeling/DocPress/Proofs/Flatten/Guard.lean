import DocPress.Proofs.Flatten.Calls
import DocPress.Proofs.Tree.Files
import Mathlib.Logic.Relation
import Mathlib.Order.WellFounded

/-!
# Files that include each other

A file is entered only while it is not in progress, and a file that takes in another one is in progress meanwhile. So
with every call that a call makes there are fewer files left to enter (`Makes.countOutside_lt`): calls nest finitely
deep, and no deeper than there are files. The limit on how deep `flattenWithin` goes therefore never shows
(`flattenWithin_eq_of_lt`), and flattening a file is calling the flattener on what the file takes in
(`flattenFile_eq_flattenOnce`).
-/

namespace DocPress.Flatten
open Text

variable {tree : Tree} {enter : Entrance} {outer inner call : Call}

/-! ## Each call leaves fewer files to enter -/

theorem location_of_script {language : Option Text} {path : Path} {level : Nat} {acts : List Action}
    {location : Location} (found : script tree language path level = .ok acts)
    (resolved : tree.resolve path = .ok location) : location ∈ tree.files := by
  obtain ⟨lines, expanded, _⟩ := script_eq_ok_iff.mp found
  obtain ⟨content, _, _, read, _⟩ := expandedLines?_eq_some_iff.mp expanded
  obtain ⟨other, same, file⟩ := Tree.resolve_of_isFile (Tree.isFile_of_readText read)
  rwa [Except.ok.inj (resolved.symm.trans same)]

theorem Makes.context (makes : Makes tree enter outer inner) (restores : enter.Restores) :
    ∃ location, tree.resolve outer.path = .ok location ∧ location ∉ outer.context.includeStack ∧
      location ∈ tree.files ∧ inner.context.includeStack = outer.context.includeStack ++ [location] ∧
      inner.context.language = outer.context.language ∧
      (outer.context.tocInserted = true → inner.context.tocInserted = true) := by
  obtain ⟨resolved, outside, found, asks⟩ := makes
  have later := asks.context_later restores
  exact ⟨_, resolved, outside, location_of_script found resolved, later.includeStack, later.language,
    later.tocInserted⟩

theorem Makes.isFile (makes : Makes tree enter outer inner) : tree.isFile inner.path = true := by
  obtain ⟨_, _, _, asks⟩ := makes
  obtain ⟨_, _, _, _, isFile⟩ := asks.exists_action
  exact isFile

theorem Makes.countOutside_lt (makes : Makes tree enter outer inner) (restores : enter.Restores) :
    tree.countOutside inner.context.includeStack < tree.countOutside outer.context.includeStack := by
  obtain ⟨location, _, outside, file, stack, _⟩ := makes.context restores
  rw [stack]
  exact Tree.countOutside_append_lt file outside

theorem wellFounded_makes (tree : Tree) (restores : enter.Restores) :
    WellFounded fun inner outer => Makes tree enter outer inner :=
  (InvImage.wf (fun call : Call => tree.countOutside call.context.includeStack) wellFounded_lt).mono
    fun _ _ makes => makes.countOutside_lt restores

/-! ## The limit never shows -/

theorem flattenWithin_eq_of_lt {first second : Nat} {call : Call}
    (enough : tree.countOutside call.context.includeStack < first)
    (more : tree.countOutside call.context.includeStack < second) :
    (flattenWithin tree first).on call = (flattenWithin tree second).on call := by
  induction first generalizing second call with
  | zero => exact absurd enough (Nat.not_lt_zero _)
  | succ first ih =>
    obtain ⟨second, rfl⟩ : ∃ n, second = n + 1 := ⟨second - 1, by omega⟩
    rw [flattenWithin_succ, flattenWithin_succ]
    apply flattenOnce_congr
    intro inner makes
    have fewer := makes.countOutside_lt (restores_flattenWithin tree second)
    exact ih (by omega) (by omega)

theorem flattenWithin_eq_flattenFile {limit : Nat} (enough : tree.files.length < limit) (call : Call) :
    (flattenWithin tree limit).on call = Entrance.on (flattenFile tree) call := by
  have outside := tree.countOutside_le call.context.includeStack
  have files := tree.length_files_le
  have enough' : tree.countOutside call.context.includeStack < tree.entries.length + 1 := by omega
  exact flattenWithin_eq_of_lt (by omega) enough'

theorem flattenFile_eq_flattenOnce (tree : Tree) : flattenFile tree = flattenOnce tree (flattenFile tree) := by
  funext path level context
  have files := tree.length_files_le
  have deeper : (flattenWithin tree (tree.entries.length + 2)).on ⟨path, level, context⟩ =
      Entrance.on (flattenFile tree) ⟨path, level, context⟩ := flattenWithin_eq_flattenFile (by omega) _
  rw [flattenWithin_succ] at deeper
  exact deeper.symm

/-! ## The files in progress during a run -/

/-- The calls that are made while a call runs, at any depth, and that call itself. -/
abbrev Runs (tree : Tree) : Call → Call → Prop :=
  Relation.ReflTransGen (Makes tree (flattenFile tree))

theorem exists_raises {call : Call} {error : Error}
    (failed : (Entrance.on (flattenFile tree) call).result = .error error) :
    ∃ inner, Runs tree call inner ∧ Raises tree inner error := by
  induction call using (wellFounded_makes tree (restores_flattenFile tree)).induction with
  | _ call ih =>
    rw [flattenFile_eq_flattenOnce] at failed
    rcases raises_or_makes failed with raises | ⟨inner, makes, called⟩
    · exact ⟨call, .refl, raises⟩
    · obtain ⟨last, runs, raises⟩ := ih inner makes called
      exact ⟨last, .head makes runs, raises⟩

theorem not_nestedTooDeep (tree : Tree) (call : Call) (path : Path) :
    (Entrance.on (flattenFile tree) call).result ≠ .error (.nestedTooDeep path) := by
  intro failed
  obtain ⟨inner, _, raises⟩ := exists_raises failed
  cases raises with
  | unscripted failed => cases isReading_of_script failed

/-- How a call within a run stands to the call that started it. -/
structure Within (tree : Tree) (start call : Call) : Prop where
  distinct : call.context.includeStack.Nodup
  nested : ∃ files, call.context.includeStack = start.context.includeStack ++ files ∧ files ⊆ tree.files
  language : call.context.language = start.context.language
  tocInserted : start.context.tocInserted = true → call.context.tocInserted = true
  isFile : call = start ∨ tree.isFile call.path = true

theorem nodup_enter {context : Context} {location : Location} (distinct : context.includeStack.Nodup)
    (outside : location ∉ context.includeStack) : (context.enter location).includeStack.Nodup := by
  rw [Context.enter, ← List.concat_eq_append]
  exact distinct.concat outside

theorem Runs.within {start call : Call} (runs : Runs tree start call) (distinct : start.context.includeStack.Nodup) :
    Within tree start call := by
  induction runs with
  | refl => exact ⟨distinct, ⟨[], by simp⟩, rfl, id, .inl rfl⟩
  | tail _ makes within =>
    obtain ⟨location, _, outside, file, stack, language, tocInserted⟩ := makes.context (restores_flattenFile tree)
    obtain ⟨files, nested, subset⟩ := within.nested
    refine ⟨?_, ⟨files ++ [location], ?_, ?_⟩, language.trans within.language, tocInserted ∘ within.tocInserted,
      .inr makes.isFile⟩
    · rw [stack]
      exact nodup_enter within.distinct outside
    · rw [stack, nested, List.append_assoc]
    · exact List.append_subset.mpr ⟨subset, by simpa using file⟩

theorem Within.entered {start call : Call} (within : Within tree start call) {location : Location}
    (resolved : tree.resolve call.path = .ok location) (outside : location ∉ call.context.includeStack) :
    (call.context.enter location).includeStack.Nodup ∧ (call = start ∨ location ∈ tree.files) ∧
      ∃ files, (call.context.enter location).includeStack = start.context.includeStack ++ files ∧
        (location ∈ tree.files → files ⊆ tree.files ∧ files.length ≤ tree.files.length) := by
  obtain ⟨files, nested, subset⟩ := within.nested
  have distinct := nodup_enter within.distinct outside
  have stack : (call.context.enter location).includeStack = start.context.includeStack ++ (files ++ [location]) := by
    rw [Context.enter, nested, List.append_assoc]
  refine ⟨distinct, within.isFile.imp_right fun isFile => ?_, files ++ [location], stack, fun file => ?_⟩
  · obtain ⟨other, same, file⟩ := Tree.resolve_of_isFile isFile
    rwa [Except.ok.inj (resolved.symm.trans same)]
  · have all : files ++ [location] ⊆ tree.files := List.append_subset.mpr ⟨subset, by simpa using file⟩
    rw [stack] at distinct
    exact ⟨all, (distinct.of_append_right.subperm all).length_le⟩

/-- Flattening comes to an end, whichever files include each other: calls nest finitely deep, the outcome of a call
depends on the calls that it makes and on nothing else, and no limit is met. In every file that is entered meanwhile
the files in progress are distinct, and those entered since the start are no more than the tree has. Afterwards, also
after an error, the files in progress and the language are those from before. -/
theorem flattenFile_guarded {path : Path} {level : Nat} {context : Context} (distinct : context.includeStack.Nodup) :
    (WellFounded fun inner outer => Makes tree (flattenFile tree) outer inner) ∧
      (∀ enter : Entrance, (∀ inner, Makes tree (flattenFile tree) ⟨path, level, context⟩ inner →
          enter.on inner = Entrance.on (flattenFile tree) inner) →
        flattenFile tree path level context = flattenOnce tree enter path level context) ∧
      (∀ limit, tree.files.length < limit →
        flattenWithin tree limit path level context = flattenFile tree path level context) ∧
      (∀ deep, (flattenFile tree path level context).result ≠ .error (.nestedTooDeep deep)) ∧
      (∀ call, Runs tree ⟨path, level, context⟩ call → Within tree ⟨path, level, context⟩ call ∧
        ∀ location, tree.resolve call.path = .ok location → location ∉ call.context.includeStack →
          (call.context.enter location).includeStack.Nodup ∧
            (call = ⟨path, level, context⟩ ∨ location ∈ tree.files) ∧
            ∃ files, (call.context.enter location).includeStack = context.includeStack ++ files ∧
              (location ∈ tree.files → files ⊆ tree.files ∧ files.length ≤ tree.files.length)) ∧
      context.Later (flattenFile tree path level context).context := by
  refine ⟨wellFounded_makes tree (restores_flattenFile tree), ?_, ?_, ?_, ?_, restores_flattenFile tree _ _ _⟩
  · intro enter same
    have called := flattenOnce_congr same
    rw [← flattenFile_eq_flattenOnce] at called
    exact called.symm
  · exact fun limit enough => flattenWithin_eq_flattenFile enough ⟨path, level, context⟩
  · exact not_nestedTooDeep tree ⟨path, level, context⟩
  · intro call runs
    have within := runs.within distinct
    exact ⟨within, fun location resolved outside => within.entered resolved outside⟩

def looped : Tree where
  entries :=
    [(["a.rst".toList], .text "A\n.. include:: b.rst\n".toList),
      (["b.rst".toList], .text "B\n\n.. toctree::\n\n   a\n".toList)]

theorem flattenFile_guarded_looped :
    ([] : List Location).Nodup ∧
      (flattenFile looped "a.rst".toList 0 {}).result =
        .error (.circularInclude "a.rst".toList [["a.rst".toList], ["b.rst".toList], ["a.rst".toList]]) ∧
      (∀ limit, 2 < limit → flattenWithin looped limit "a.rst".toList 0 {} = flattenFile looped "a.rst".toList 0 {}) ∧
      (flattenFile looped "a.rst".toList 0 {}).context.includeStack = [] := by
  obtain ⟨_, _, unlimited, _, _, later⟩ :=
    @flattenFile_guarded looped "a.rst".toList 0 {} List.nodup_nil
  have size : looped.files.length = 2 := by decide +kernel
  exact ⟨List.nodup_nil, by decide +kernel, fun limit enough => unlimited limit (size ▸ enough), later.includeStack⟩

end DocPress.Flatten
