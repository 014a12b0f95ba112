import DocPress.Proofs.Flatten.Guard
import Mathlib.Data.List.Chain

namespace DocPress.Flatten
open Text Relation

abbrev Visit := Path × Nat

inductive Includes (tree : Tree) (language : Option Text) : Visit → Visit → Prop where
  | of_action {file level acts note reference below} : script tree language file level = .ok acts →
      .takeIn note reference below ∈ acts → tree.isFile (target file reference) = true →
      Includes tree language (file, level) (target file reference, below)

def Call.visit (call : Call) : Visit :=
  (call.path, call.level)

/-- No walk along includes from the root comes back to a file that it has met. -/
def Acyclic (tree : Tree) (language : Option Text) (root : Visit) : Prop :=
  ∀ visit again, ReflTransGen (Includes tree language) root visit → TransGen (Includes tree language) visit again →
    tree.resolve visit.1 ≠ tree.resolve again.1

variable {tree : Tree} {enter : Entrance} {file : Path} {acts : List Action} {context : Context}
  {start call outer inner : Call}

theorem Makes.includes (makes : Makes tree enter outer inner) :
    Includes tree outer.context.language outer.visit inner.visit := by
  obtain ⟨_, _, found, asks⟩ := makes
  obtain ⟨note, reference, member, path, isFile⟩ := asks.exists_action
  obtain ⟨path', level, context⟩ := inner
  obtain rfl : path' = target outer.path reference := path
  exact .of_action found member isFile

/-! ## Walks in a run -/

theorem Runs.language (runs : Runs tree start call) : call.context.language = start.context.language := by
  induction runs with
  | refl => rfl
  | tail _ makes ih =>
    obtain ⟨_, _, _, _, _, language, _⟩ := makes.context (restores_flattenFile tree)
    exact language.trans ih

theorem Runs.includes (runs : Runs tree start call) (makes : Makes tree (flattenFile tree) call inner) :
    Includes tree start.context.language call.visit inner.visit :=
  Runs.language runs ▸ makes.includes

theorem Runs.reaches (runs : Runs tree start call) :
    ReflTransGen (Includes tree start.context.language) start.visit call.visit := by
  induction runs with
  | refl => exact .refl
  | tail runs makes ih => exact ih.tail (Runs.includes runs makes)

/-- The files in progress at a call are those of a walk to it, without its own. -/
theorem Runs.walk (runs : Runs tree start call) :
    ∃ walk : List Visit, ∃ files : List Location,
      (walk ++ [call.visit]).head? = some start.visit ∧
        (walk ++ [call.visit]).IsChain (Includes tree start.context.language) ∧
        walk.map (fun visit => tree.resolve visit.1) = files.map .ok ∧
        call.context.includeStack = start.context.includeStack ++ files := by
  induction runs with
  | refl => exact ⟨[], [], rfl, .singleton _, rfl, by simp⟩
  | @tail middle call runs makes ih =>
    obtain ⟨walk, files, head, chain, resolved, stack⟩ := ih
    obtain ⟨location, found, _, _, inside, _⟩ := makes.context (restores_flattenFile tree)
    refine ⟨walk ++ [middle.visit], files ++ [location], ?_, ?_, ?_, ?_⟩
    · rw [List.head?_append, head]
      rfl
    · refine chain.append (.singleton _) fun last member next among => ?_
      rw [List.getLast?_concat, Option.mem_some_iff] at member
      rw [List.head?_singleton, Option.mem_some_iff] at among
      rw [← member, ← among]
      exact Runs.includes runs makes
    · rw [List.map_append, List.map_append, resolved, List.map_singleton, Call.visit, found]
      rfl
    · rw [inside, stack, List.append_assoc]

theorem Runs.exists_visit (runs : Runs tree start call) {location : Location}
    (inside : location ∈ call.context.includeStack) (outside : location ∉ start.context.includeStack) :
    ∃ visit, ReflTransGen (Includes tree start.context.language) start.visit visit ∧
      TransGen (Includes tree start.context.language) visit call.visit ∧ tree.resolve visit.1 = .ok location := by
  induction runs with
  | refl => exact absurd inside outside
  | @tail middle call runs makes ih =>
    obtain ⟨own, found, _, _, stack, _⟩ := makes.context (restores_flattenFile tree)
    have includes := Runs.includes runs makes
    rw [stack] at inside
    rcases List.mem_append.mp inside with before | last
    · obtain ⟨visit, reached, on, resolved⟩ := ih before
      exact ⟨visit, reached, on.tail includes, resolved⟩
    · obtain rfl := List.mem_singleton.mp last
      exact ⟨middle.visit, Runs.reaches runs, .single includes, found⟩

/-! ## The error about a circular include -/

theorem exists_circular_call {path : Path} {chain : List Location}
    (failed : (Entrance.on (flattenFile tree) call).result = .error (.circularInclude path chain)) :
    ∃ inner location, Runs tree call inner ∧ tree.resolve inner.path = .ok location ∧
      location ∈ inner.context.includeStack ∧ path = inner.path ∧ chain = inner.context.includeStack ++ [location] := by
  obtain ⟨inner, runs, raises⟩ := exists_raises failed
  cases raises with
  | circular resolved inside => exact ⟨inner, _, runs, resolved, inside, rfl, rfl⟩
  | unscripted failed => cases isReading_of_script failed

/-- The error about a circular include is exact: its chain is a walk along includes from the root, with no file twice
but the last, which it has met before, and it is not raised where every walk from the root meets each file once. -/
theorem circularInclude_exact (tree : Tree) (root : Path) (language : Option Text) :
    (∀ path chain, (flattenTree tree root (.new language)).result = .error (.circularInclude path chain) →
      ∃ walk : List Visit, ∃ level before again,
        (walk ++ [(path, level)]).head? = some (root, 0) ∧
          (walk ++ [(path, level)]).IsChain (Includes tree (Context.new language).language) ∧
          chain = before ++ [again] ∧ walk.map (fun visit => tree.resolve visit.1) = before.map .ok ∧
          tree.resolve path = .ok again ∧ before.Nodup ∧ again ∈ before) ∧
      (Acyclic tree (Context.new language).language (root, 0) →
        ∀ path chain, (flattenTree tree root (.new language)).result ≠ .error (.circularInclude path chain)) := by
  have circular : ∀ path chain, (flattenTree tree root (.new language)).result = .error (.circularInclude path chain) →
      ∃ inner location, Runs tree ⟨root, 0, .new language⟩ inner ∧ tree.resolve inner.path = .ok location ∧
        location ∈ inner.context.includeStack ∧ path = inner.path ∧
        chain = inner.context.includeStack ++ [location] :=
    fun path chain failed => @exists_circular_call tree ⟨root, 0, .new language⟩ path chain failed
  constructor
  · intro path chain failed
    obtain ⟨inner, location, runs, resolved, inside, rfl, rfl⟩ := circular path chain failed
    obtain ⟨walk, files, head, chain, found, stack⟩ := Runs.walk runs
    have distinct := (Runs.within runs List.nodup_nil).distinct
    obtain rfl : inner.context.includeStack = files := stack
    exact ⟨walk, inner.level, _, location, head, chain, rfl, found, resolved, distinct, inside⟩
  · intro acyclic path chain failed
    obtain ⟨inner, location, runs, resolved, inside, _⟩ := circular path chain failed
    obtain ⟨visit, reached, on, found⟩ := Runs.exists_visit runs inside List.not_mem_nil
    exact acyclic visit inner.visit reached on (found.trans resolved.symm)

theorem circularInclude_exact_looped :
    (flattenTree looped "a.rst".toList (.new none)).result =
        .error (.circularInclude "a.rst".toList [["a.rst".toList], ["b.rst".toList], ["a.rst".toList]]) ∧
      ∃ walk : List Visit, ∃ level before again,
        (walk ++ [("a.rst".toList, level)]).head? = some ("a.rst".toList, 0) ∧
          (walk ++ [("a.rst".toList, level)]).IsChain (Includes looped none) ∧
          [["a.rst".toList], ["b.rst".toList], ["a.rst".toList]] = before ++ [again] ∧
          walk.map (fun visit => looped.resolve visit.1) = before.map .ok ∧
          looped.resolve "a.rst".toList = .ok again ∧ before.Nodup ∧ again ∈ before := by
  have failed : (flattenTree looped "a.rst".toList (.new none)).result =
      .error (.circularInclude "a.rst".toList [["a.rst".toList], ["b.rst".toList], ["a.rst".toList]]) := by decide +kernel
  exact ⟨failed, (circularInclude_exact looped "a.rst".toList none).1 _ _ failed⟩

/-! ## Runs that succeed -/

theorem asks_of_ok {lines : List Text} (ok : (perform tree enter file acts context).result = .ok lines)
    {note : Note} {reference : Text} {level : Nat} (member : .takeIn note reference level ∈ acts) :
    ∃ call taken, Asks tree enter file acts context call ∧ call.visit = (target file reference, level) ∧
      (enter.on call).result = .ok taken := by
  induction acts generalizing context lines with
  | nil => cases member
  | cons action rest ih =>
    rw [perform] at ok
    cases first : (act tree enter file action context).result with
    | error error =>
      rw [Outcome.followedBy_of_error first, first] at ok
      cases ok
    | ok own =>
      rcases List.mem_cons.mp member with rfl | below
      · cases isFile : tree.isFile (target file reference) with
        | false =>
          rw [act_takeIn_missing tree enter note isFile] at first
          cases first
        | true =>
          rw [(act_takeIn tree enter note isFile).1] at first
          cases taken : (enter (target file reference) level context).result with
          | error error => simp [taken, Except.map] at first
          | ok lines => exact ⟨_, lines, .here isFile, rfl, taken⟩
      · rw [(Outcome.followedBy_of_ok first).1] at ok
        cases later : (perform tree enter file rest (act tree enter file action context).context).result with
        | error error => simp [later, Except.map] at ok
        | ok more =>
          obtain ⟨call, taken, asks, visit, called⟩ := ih later below
          exact ⟨call, taken, .later first asks, visit, called⟩

theorem entered_of_ok {lines : List Text} (ok : (Entrance.on (flattenOnce tree enter) call).result = .ok lines) :
    ∃ location acts, tree.resolve call.path = .ok location ∧ location ∉ call.context.includeStack ∧
      script tree call.context.language call.path call.level = .ok acts ∧
      (perform tree enter call.path acts (call.context.enter location).countFile).result = .ok lines := by
  rw [Entrance.on] at ok
  rcases flattenOnce_cases tree call.path call.level call.context with
    ⟨_, _, equal⟩ | ⟨_, _, _, equal⟩ | ⟨location, notes, resolved, outside, _, equal⟩
  · rw [equal] at ok
    cases ok
  · rw [equal] at ok
    cases ok
  · rw [equal] at ok
    change (runScript _ _ _ _ _).result = _ at ok
    cases found : script tree call.context.language call.path call.level with
    | error error =>
      rw [found] at ok
      cases ok
    | ok acts =>
      rw [found] at ok
      exact ⟨location, acts, resolved, outside, rfl, ok⟩

theorem makes_of_includes {lines : List Text} (ok : (Entrance.on (flattenOnce tree enter) outer).result = .ok lines)
    {next : Visit} (includes : Includes tree outer.context.language outer.visit next) :
    ∃ inner taken, Makes tree enter outer inner ∧ inner.visit = next ∧ (enter.on inner).result = .ok taken := by
  obtain ⟨location, acts, resolved, outside, found, performed⟩ := entered_of_ok ok
  generalize shown : outer.visit = visit at includes
  obtain @⟨_, _, acts', _, _, _, found', member, _⟩ := includes
  obtain ⟨rfl, rfl⟩ := Prod.mk.inj shown
  obtain rfl := Except.ok.inj (found.symm.trans found')
  obtain ⟨inner, taken, asks, visit, called⟩ := asks_of_ok performed member
  exact ⟨inner, taken, .of_script resolved outside found asks, visit, called⟩

theorem runs_of_reaches {lines : List Text} (ok : (Entrance.on (flattenFile tree) start).result = .ok lines)
    {visit : Visit} (reaches : ReflTransGen (Includes tree start.context.language) start.visit visit) :
    ∃ call taken, Runs tree start call ∧ call.visit = visit ∧
      (Entrance.on (flattenFile tree) call).result = .ok taken := by
  induction reaches with
  | refl => exact ⟨start, lines, .refl, rfl, ok⟩
  | tail _ includes ih =>
    obtain ⟨call, taken, runs, rfl, called⟩ := ih
    rw [flattenFile_eq_flattenOnce] at called
    rw [← Runs.language runs] at includes
    obtain ⟨inner, taken, makes, visit, called⟩ := makes_of_includes called includes
    exact ⟨inner, taken, runs.tail makes, visit, called⟩

theorem enters_of_ok {lines : List Text} (ok : (Entrance.on (flattenFile tree) call).result = .ok lines) :
    ∃ location, tree.resolve call.path = .ok location ∧ location ∉ call.context.includeStack := by
  rw [flattenFile_eq_flattenOnce] at ok
  obtain ⟨location, _, resolved, outside, _⟩ := entered_of_ok ok
  exact ⟨location, resolved, outside⟩

/-- A run that succeeds has met all that is reached from its root, and no file within itself. -/
theorem flattenTree_ok_acyclic {root : Path} {lines : List Text}
    (ok : (flattenTree tree root context).result = .ok lines) : Acyclic tree context.language (root, 0) := by
  intro visit again reached on same
  obtain ⟨call, _, runs, rfl, called⟩ := @runs_of_reaches tree ⟨root, 0, context⟩ lines ok _ reached
  rw [← show call.context.language = context.language from Runs.language runs] at on
  obtain ⟨next, includes, rest⟩ := TransGen.head'_iff.mp on
  obtain ⟨inner, _, makes, rfl, entered⟩ := makes_of_includes (flattenFile_eq_flattenOnce tree ▸ called) includes
  obtain ⟨location, resolved, _, _, stack, language, _⟩ := makes.context (restores_flattenFile tree)
  rw [← language] at rest
  obtain ⟨last, _, later, rfl, finished⟩ := runs_of_reaches entered rest
  -- the file of `call` is in progress at `last`, which succeeds and so is for another file
  obtain ⟨_, files, _, _, _, progress⟩ := Runs.walk later
  obtain ⟨other, found, outside⟩ := enters_of_ok finished
  obtain rfl : location = other := Except.ok.inj (resolved.symm.trans (same.trans found))
  rw [progress, stack] at outside
  exact outside (by simp)

end DocPress.Flatten
