import DocPress.Proofs.Flatten.Cycle
import DocPress.Proofs.Flatten.Language

namespace DocPress.Flatten
open Text Markup Heading Catalog

/-! ## Lines of a file in a language -/

/-- In a language, the lines of a file that stand between those above and those below become one line. -/
inductive ComesFrom (tree : Tree) (file : Path) : Option Text → List Text → List Text → List Text → Text → Prop where
  | itself {above line below} : ComesFrom tree file none above [line] below line
  | joined {language source above own below line} : tree.readText (Catalog.path file language) = .ok source →
      joinWrapped own = [line] → joinWrapped (above ++ own ++ below) = joinWrapped above ++ line :: joinWrapped below →
      ComesFrom tree file (some language) above own below ((Catalog.parse source).localizeLine line)

def Unjoined (language : Option Text) (lines : List Text) : Prop :=
  language = none ∨ lines.IsChain fun a b => continuesLine a b = false

def Untouched (tree : Tree) (file : Path) (language : Option Text) (line : Text) : Prop :=
  ∀ name source, language = some name → tree.readText (Catalog.path file name) = .ok source →
    ∀ phrase ∈ (Catalog.parse source).entries, occurs phrase.source line = false

section
variable {tree : Tree} {file : Path} {language : Option Text} {above own below : List Text} {line : Text}

theorem ComesFrom.eq_of_untouched {disk : Text} (comes : ComesFrom tree file language above [disk] below line)
    (untouched : Untouched tree file language disk) : line = disk := by
  cases comes with
  | itself => rfl
  | joined read whole =>
    cases whole
    exact localizeLine_of_spared (untouched _ _ rfl read)

theorem exists_comesFrom {name : Text} {lines localized : List Text} {notes : List Note} {i : Nat}
    (ok : localizeFile tree language file lines = .ok (localized, notes)) (at_line : localized[i]? = some line)
    (directive : isDirective name line = true) : ∃ above own below, lines = above ++ own ++ below ∧
      ComesFrom tree file language above own below line ∧ (Unjoined language above → i = above.length) := by
  cases language with
  | none =>
    cases ok
    obtain ⟨inside, rfl⟩ := List.getElem?_eq_some_iff.mp at_line
    refine ⟨lines.take i, [lines[i]], lines.drop (i + 1), ?_, .itself, fun _ => ?_⟩
    · simp
    · rw [List.length_take_of_le inside.le]
  | some language =>
    obtain ⟨source, read, rfl⟩ := exists_catalog_of_localizeFile ok
    rw [Catalog.localize, resizeAll_eq_fitted] at at_line
    -- the pass over the underlines leaves the line of a directive as it is
    rcases getElem?_fitted_cases at_line with before | ⟨title, marker, rfl⟩
    · rw [List.getElem?_map] at before
      obtain ⟨joined, found, rfl⟩ := Option.map_eq_some_iff.mp before
      obtain ⟨above, own, below, rfl, whole, length, parted⟩ := exists_stretch found
      refine ⟨above, own, below, rfl, .joined read whole parted, ?_⟩
      rintro (⟨⟨⟩⟩ | apart)
      rw [← length, joinWrapped_eq_self apart]
    · rw [isDirective_underlineFor] at directive
      cases directive

end

/-! ## Where the directives of a file stand -/

theorem getElem?_dropWhile (p : Text → Bool) (lines : List Text) (i : Nat) :
    (lines.dropWhile p)[i]? = lines[(lines.takeWhile p).length + i]? := by
  calc (lines.dropWhile p)[i]?
      = (lines.takeWhile p ++ lines.dropWhile p)[(lines.takeWhile p).length + i]? := by
        rw [List.getElem?_append_right (Nat.le_add_right _ _), Nat.add_sub_cancel_left]
    _ = lines[(lines.takeWhile p).length + i]? := by rw [List.takeWhile_append_dropWhile]

theorem getElem?_of_inclusion_mem {start number : Nat} {lines : List Text} {line : Text} {target : Option Text}
    (member : .inclusion number line target ∈ piecesFrom start lines) :
    ∃ i, number = start + i ∧ lines[i]? = some line ∧ isDirective "include".toList line = true ∧
      target = directiveArgument? "include".toList line := by
  induction lines using landmarks_induction generalizing start with
  | nil => simp [piecesFrom] at member
  | underline first rest marker found ih =>
    rw [piecesFrom_underline found, List.mem_cons] at member
    obtain ⟨⟨⟩⟩ | below := member
    obtain ⟨i, rfl, at_line, directive⟩ := ih below
    exact ⟨i + 1, by omega, at_line, directive⟩
  | toctree first rest found toctree ih =>
    rw [piecesFrom_toctree found toctree, List.mem_cons] at member
    obtain ⟨⟨⟩⟩ | below := member
    obtain ⟨i, rfl, at_line, directive⟩ := ih below
    -- what goes on stands below the options, a blank line and the entries
    rw [getElem?_dropWhile, List.getElem?_drop, getElem?_dropWhile] at at_line
    exact ⟨_ + 1, by omega, at_line, directive⟩
  | inclusion first rest found toctree inclusion ih =>
    rw [piecesFrom_include found toctree inclusion, List.mem_cons] at member
    rcases member with own | below
    · cases own
      exact ⟨0, rfl, rfl, inclusion, rfl⟩
    · obtain ⟨i, rfl, at_line, directive⟩ := ih below
      exact ⟨i + 1, by omega, at_line, directive⟩
  | plain first rest found toctree inclusion ih =>
    rw [piecesFrom_plain found toctree inclusion, List.mem_cons] at member
    obtain ⟨⟨⟩⟩ | below := member
    obtain ⟨i, rfl, at_line, directive⟩ := ih below
    exact ⟨i + 1, by omega, at_line, directive⟩

/-! ## The error about a directive without a target -/

def Untargeted (line : Text) : Prop :=
  isDirective "include".toList line = true ∧ directiveArgument? "include".toList line = none

instance : DecidablePred Untargeted := fun line =>
  inferInstanceAs (Decidable (isDirective "include".toList line = true ∧ directiveArgument? "include".toList line = none))

theorem untargeted_trimEnd_iff {line : Text} : Untargeted (trimEnd line) ↔ Untargeted line := by
  rw [Untargeted, Untargeted, isDirective_trimEnd, directiveArgument?_trimEnd]

theorem exists_untargeted_localized {tree : Tree} {language : Option Text} {file : Path} {level number : Nat}
    {lines : List Text} {shown : Text} (expanded : expandedLines? tree language file level = some lines)
    (member : .inclusion number shown none ∈ pieces lines) :
    ∃ content localized notes line i, tree.readText file = .ok content ∧
      localizeFile tree language file (Text.lines content) = .ok (localized, notes) ∧ localized[i]? = some line ∧
      shown = trimEnd line ∧ Untargeted shown ∧ number = i + 1 := by
  obtain ⟨content, localized, notes, read, localize, ok⟩ := expandedLines?_eq_some_iff.mp expanded
  obtain ⟨fits, rfl⟩ := normalize_eq_ok_iff.mp ok
  obtain ⟨i, rfl, at_line, directive, argument⟩ := getElem?_of_inclusion_mem member
  rw [List.getElem?_map] at at_line
  obtain ⟨line, found, rfl⟩ := Option.map_eq_some_iff.mp at_line
  -- an underline would have been moved to another one, which is no directive
  have plain : underlineMarker? line = none :=
    (underlineMarker?_normalizeLine_eq_none_iff fits (List.mem_of_getElem? found)).mp
      (underlineMarker?_of_isDirective directive)
  exact ⟨content, localized, notes, line, i, read, localize, found, normalizeLine_of_none plain _ _,
    ⟨directive, argument.symm⟩, Nat.add_comm 1 i⟩

/-- The error about a directive without a target shows such a directive. Some lines of its file that follow each other, in
the language of the run, are the line that it shows. Where no lines above these are joined, the number is that of the first
of them, and a line that stays as it is in the language is such a directive itself. -/
theorem directiveWithoutTarget_placed {tree : Tree} {root path : Path} {context : Context} {number : Nat} {shown : Text}
    (failed : (flattenTree tree root context).result = .error (.directiveWithoutTarget path number shown)) :
    Untargeted shown ∧ ∃ content above own below line, tree.readText path = .ok content ∧
      Text.lines content = above ++ own ++ below ∧ ComesFrom tree path context.language above own below line ∧
      shown = trimEnd line ∧ (Unjoined context.language above → number = above.length + 1) ∧
      ∀ disk, own = [disk] → Untouched tree path context.language disk → Untargeted disk := by
  obtain ⟨inner, runs, raises⟩ := @exists_raises tree ⟨root, 0, context⟩ _ failed
  have language : inner.context.language = context.language := Runs.language runs
  cases raises with
  | unscripted failed => cases isReading_of_script failed
  | untargeted expanded member =>
    obtain ⟨content, localized, notes, line, i, read, localize, at_line, rfl, untargeted, rfl⟩ :=
      exists_untargeted_localized expanded member
    rw [language] at localize
    have whole := untargeted_trimEnd_iff.mp untargeted
    obtain ⟨above, own, below, split, comes, position⟩ := exists_comesFrom localize at_line whole.1
    refine ⟨untargeted, content, above, own, below, line, read, split, comes, rfl, ?_, ?_⟩
    · intro unjoined
      rw [position unjoined]
    · rintro disk rfl untouched
      rwa [← comes.eq_of_untouched untouched]

def unfinished : Tree where
  entries :=
    [(["index.rst".toList], .text "Book\n====\n\n.. include:: part.rst\n".toList),
      (["part.rst".toList], .text "Part\n----\n\n.. include::\n".toList)] ++ catalogs ["index".toList, "part".toList]

theorem directiveWithoutTarget_placed_unfinished :
    (flattenTree unfinished "index.rst".toList (.new (some "de".toList))).result =
        .error (.directiveWithoutTarget "part.rst".toList 4 ".. include::".toList) ∧
      ∃ content above own below line, unfinished.readText "part.rst".toList = .ok content ∧
        Text.lines content = above ++ own ++ below ∧
        ComesFrom unfinished "part.rst".toList (some "de".toList) above own below line ∧
        ".. include::".toList = trimEnd line ∧ (Unjoined (some "de".toList) above → 4 = above.length + 1) ∧
        ∀ disk, own = [disk] → Untouched unfinished "part.rst".toList (some "de".toList) disk → Untargeted disk := by
  have failed : (flattenTree unfinished "index.rst".toList (.new (some "de".toList))).result =
      .error (.directiveWithoutTarget "part.rst".toList 4 ".. include::".toList) := by decide +kernel
  exact ⟨failed, (directiveWithoutTarget_placed failed).2⟩

def untargeting : Tree where
  entries :=
    [(["index.rst".toList], .text ".. include:: part.rst\n".toList), (["part.rst".toList], .text "Part\n".toList),
      (["locales".toList], .directory), (["locales".toList, "de".toList], .directory),
      (["locales".toList, "de".toList, "LC_MESSAGES".toList], .directory),
      (["locales".toList, "de".toList, "LC_MESSAGES".toList, "index.po".toList],
        .text "msgid \"\"\nmsgstr \"\"\n\nmsgid \".. include:: part.rst\"\nmsgstr \".. include::\"\n".toList)]

theorem directiveWithoutTarget_not_on_disk :
    ¬∀ (tree : Tree) (root : Path) (language : Option Text) (path : Path) (number : Nat) (shown : Text),
      (flattenTree tree root (.new language)).result = .error (.directiveWithoutTarget path number shown) →
      ∃ content line, tree.readText path = .ok content ∧ 1 ≤ number ∧
        (Text.lines content)[number - 1]? = some line ∧ Untargeted line := by
  intro on_disk
  obtain ⟨content, line, read, _, at_line, untargeted⟩ := on_disk untargeting "index.rst".toList (some "de".toList)
    "index.rst".toList 1 ".. include::".toList (by decide +kernel)
  have disk : untargeting.readText "index.rst".toList = .ok ".. include:: part.rst\n".toList := by decide +kernel
  obtain rfl := Except.ok.inj (disk.symm.trans read)
  obtain rfl : ".. include:: part.rst".toList = line := Option.some.inj at_line
  exact absurd untargeted (by decide +kernel)

end DocPress.Flatten
