import DocPress.Catalog.Basic
import DocPress.Proofs.Heading.Hierarchy
import Mathlib.Data.List.Chain

/-!
# Joining wrapped lines

Whether a line goes on with the one above depends on the end of that one and on its own start. So a line that has been
joined goes on to the next one just as its last part does, and joining is a recursion on neighbours
(`joinWrapped_induction`). Each line that comes of it is made of lines that follow each other, and those above and below
are joined without them (`exists_stretch`). Blank lines and underlines are never joined: joining works on the
stretches between blank lines one by one (`takeWhile_joinWrapped`, `dropWhile_joinWrapped`), and keeps the hierarchy of
the headings.
-/

namespace DocPress.Catalog
open Text Heading

/-! ## One line after another -/

def merged (previous line : Text) : Text :=
  previous ++ ' ' :: line.dropWhile (· == ' ')

section
variable {previous line : Text}

theorem joinWrapped_of_continues (continues : continuesLine previous line = true) (rest : List Text) :
    joinWrapped (previous :: line :: rest) = joinWrapped (merged previous line :: rest) := by
  rw [joinWrapped, joinFrom, if_pos continues]
  rfl

theorem joinWrapped_of_not_continues (apart : continuesLine previous line = false) (rest : List Text) :
    joinWrapped (previous :: line :: rest) = previous :: joinWrapped (line :: rest) := by
  rw [joinWrapped, joinFrom, if_neg (Bool.eq_false_iff.mp apart)]
  rfl

end

@[elab_as_elim]
theorem joinWrapped_induction {motive : List Text → Prop} (nil : motive []) (single : ∀ line, motive [line])
    (continued : ∀ previous line rest, continuesLine previous line = true →
      motive (merged previous line :: rest) → motive (previous :: line :: rest))
    (apart : ∀ previous line rest, continuesLine previous line = false →
      motive (line :: rest) → motive (previous :: line :: rest)) (lines : List Text) : motive lines := by
  cases lines with
  | nil => exact nil
  | cons line rest =>
    induction rest generalizing line with
    | nil => exact single line
    | cons next rest ih =>
      cases continues : continuesLine line next with
      | true => exact continued _ _ _ continues (ih _)
      | false => exact apart _ _ _ continues (ih _)

theorem joinWrapped_eq_self {lines : List Text} (apart : lines.IsChain fun a b => continuesLine a b = false) :
    joinWrapped lines = lines := by
  induction lines using joinWrapped_induction with
  | nil | single line => rfl
  | continued previous line rest continues =>
    rw [(List.isChain_cons_cons.mp apart).1] at continues
    cases continues
  | apart previous line rest none ih =>
    rw [joinWrapped_of_not_continues none, ih (List.isChain_cons_cons.mp apart).2]

/-! ## Lines that go on -/

theorem isSpace_of_isJoint {c : Char} (joint : isJoint c = true) : isSpace c = false := by
  rw [isJoint, Bool.or_eq_true, List.contains_iff_mem] at joint
  rcases joint with alphanumeric | mark
  · have bounds : (48 ≤ c.toNat ∧ c.toNat ≤ 57) ∨ (65 ≤ c.toNat ∧ c.toNat ≤ 90) ∨ (97 ≤ c.toNat ∧ c.toNat ≤ 122) := by
      change ((decide (c.val ≥ 'A'.val ∧ c.val ≤ 'Z'.val) || (c.val ≥ 'a'.val && c.val ≤ 'z'.val)) ||
        (c.val ≥ '0'.val && c.val ≤ '9'.val)) = true at alphanumeric
      simp only [Bool.or_eq_true, Bool.and_eq_true, decide_eq_true_eq, ge_iff_le, UInt32.le_iff_toNat_le] at alphanumeric
      change ((65 ≤ c.toNat ∧ c.toNat ≤ 90) ∨ (97 ≤ c.toNat ∧ c.toNat ≤ 122)) ∨ (48 ≤ c.toNat ∧ c.toNat ≤ 57)
        at alphanumeric
      omega
    simp only [isSpace, Bool.or_eq_false_iff, Bool.and_eq_false_iff, decide_eq_false_iff_not, beq_eq_false_iff_ne]
    omega
  · have marks : (".,\"#$%&'()|:\\".toList.all fun c => !isSpace c) = true := by decide
    simpa using List.all_eq_true.mp marks c mark

theorem exists_visible_of_startsJoined {line : Text} (starts : startsJoined line = true) :
    ∃ s c t, line = s ++ c :: t ∧ isBlank s = true ∧ isSpace c = false := by
  rw [startsJoined, Bool.or_eq_true] at starts
  rcases starts with at_once | later
  · obtain ⟨c, head, joint⟩ := (Option.any_eq_true _ _).mp at_once
    obtain ⟨t, rfl⟩ := List.head?_eq_some_iff.mp head
    exact ⟨[], c, t, rfl, rfl, isSpace_of_isJoint joint⟩
  · split at later
    · cases later
    · next rest found =>
      obtain ⟨c, head, joint⟩ := (Option.any_eq_true _ _).mp (Bool.and_eq_true_iff.mp later).2
      obtain ⟨t, start⟩ := List.head?_eq_some_iff.mp head
      refine ⟨"   ".toList ++ rest.takeWhile isSpace, c, t, ?_, ?_, isSpace_of_isJoint joint⟩
      · rw [List.append_assoc, ← start, trimStart, List.takeWhile_append_dropWhile]
        exact afterLead?_eq_some_iff.mp found
      · rw [isBlank, List.all_append, Bool.and_eq_true]
        exact ⟨rfl, List.all_takeWhile⟩

structure Continuation (previous line : Text) : Prop where
  last : ∃ c ∈ previous.getLast?, isSpace c = false
  above : underlineMarker? previous = none
  below : underlineMarker? line = none
  start : ∃ s c t, line = s ++ c :: t ∧ isBlank s = true ∧ isSpace c = false

variable {previous line : Text}

theorem continuation (continues : continuesLine previous line = true) : Continuation previous line := by
  simp only [continuesLine, Bool.and_eq_true, Bool.not_eq_true', isUnderline, Option.isSome_eq_false_iff,
    Option.isNone_iff_eq_none] at continues
  obtain ⟨⟨⟨⟨ends, above⟩, starts⟩, below⟩, _⟩ := continues
  obtain ⟨c, last, joint⟩ := (Option.any_eq_true _ _).mp ends
  exact ⟨⟨c, last, isSpace_of_isJoint joint⟩, above, below, exists_visible_of_startsJoined starts⟩

namespace Continuation

theorem filled_above (continues : Continuation previous line) : isFilled previous = true := by
  obtain ⟨c, last, visible⟩ := continues.last
  rw [isFilled, Bool.not_eq_true', isBlank, List.all_eq_false]
  exact ⟨c, List.mem_of_getLast? last, by simp [visible]⟩

theorem filled_below (continues : Continuation previous line) : isFilled line = true := by
  obtain ⟨s, c, t, rfl, _, visible⟩ := continues.start
  rw [isFilled, Bool.not_eq_true', isBlank, List.all_eq_false]
  exact ⟨c, by simp, by simp [visible]⟩

theorem trimEnd_above (continues : Continuation previous line) : trimEnd previous = previous := by
  obtain ⟨c, last, visible⟩ := continues.last
  rw [trimEnd_eq_self_iff]
  intro d found
  rwa [Option.some.inj (last.symm.trans found)] at visible

theorem exists_merged (continues : Continuation previous line) :
    ∃ s c t, merged previous line = previous ++ ' ' :: s ++ c :: t ∧ isSpace c = false ∧
      line.getLast? = (c :: t).getLast? := by
  obtain ⟨s, c, t, rfl, _, visible⟩ := continues.start
  have kept : (c :: t).dropWhile (· == ' ') = c :: t := by
    rw [List.dropWhile_cons_of_neg]
    rw [beq_iff_eq]
    rintro rfl
    cases visible
  refine ⟨s.dropWhile (· == ' '), c, t, ?_, visible, List.getLast?_append_of_ne_nil s (List.cons_ne_nil c t)⟩
  rw [merged, List.dropWhile_append, kept]
  split
  · next empty => simp [List.isEmpty_iff.mp empty]
  · simp

theorem getLast?_merged (continues : Continuation previous line) :
    (merged previous line).getLast? = line.getLast? := by
  obtain ⟨s, c, t, shape, _, last⟩ := continues.exists_merged
  rw [shape, last, List.getLast?_append_of_ne_nil _ (List.cons_ne_nil c t)]

theorem underlineMarker?_merged (continues : Continuation previous line) :
    underlineMarker? (merged previous line) = none := by
  obtain ⟨s, c, t, shape, visible, _⟩ := continues.exists_merged
  rw [Option.eq_none_iff_forall_ne_some]
  intro marker found
  obtain ⟨n, _, same⟩ := underlineMarker?_eq_some_iff.mp found
  rw [shape, trimEnd_append_cons visible] at same
  have space : ' ' ∈ List.replicate n marker.toChar := by
    rw [← same]
    simp
  have absent := List.eq_of_mem_replicate space
  cases marker <;> cases absent

theorem filled_merged (continues : Continuation previous line) : isFilled (merged previous line) = true := by
  obtain ⟨s, c, t, shape, visible, _⟩ := continues.exists_merged
  rw [isFilled, Bool.not_eq_true', isBlank, List.all_eq_false]
  exact ⟨c, by simp [shape], by simp [visible]⟩

theorem exists_trim_merged (continues : Continuation previous line) :
    ∃ y, trim (merged previous line) = trim previous ++ ' ' :: y := by
  obtain ⟨s, c, t, shape, visible, _⟩ := continues.exists_merged
  have filled := continues.filled_above
  have start : previous.dropWhile isSpace ≠ [] := by
    rw [ne_eq, List.dropWhile_eq_nil_iff, ← List.all_eq_true]
    simpa [isFilled, isBlank] using filled
  have above : trim previous = previous.dropWhile isSpace :=
    trimEnd_of_suffix continues.trimEnd_above (List.dropWhile_suffix _)
  refine ⟨s ++ c :: trimEnd t, ?_⟩
  have cut : (merged previous line).dropWhile isSpace = (previous.dropWhile isSpace ++ ' ' :: s) ++ c :: t := by
    rw [shape, List.append_assoc, List.dropWhile_append, if_neg (by simpa using start), List.append_assoc]
  rw [trim, stripWhile, cut]
  change trimEnd _ = _
  rw [trimEnd_append_cons visible, above, List.append_assoc, List.cons_append]

theorem space_mem_trim_merged (continues : Continuation previous line) : ' ' ∈ trim (merged previous line) := by
  obtain ⟨y, shape⟩ := continues.exists_trim_merged
  simp [shape]

theorem lead_merged (continues : Continuation previous line) {first second rest : Text} (outside : ' ' ∉ first)
    (outside' : ' ' ∉ second) (lead : trim (merged previous line) = first ++ ' ' :: second ++ rest) :
    trim previous = first ∨ ∃ more, trim previous = first ++ ' ' :: second ++ more := by
  obtain ⟨y, shape⟩ := continues.exists_trim_merged
  rcases List.append_eq_append_iff.mp (shape.symm.trans lead) with ⟨gap, words, behind⟩ | ⟨more, words, _⟩
  · cases gap with
    | nil => exact .inr ⟨[], by rw [words, List.append_nil, List.append_nil]⟩
    | cons c gap =>
      obtain ⟨rfl, _⟩ := List.cons.inj behind
      exact .inl ((List.append_cons_inj_of_notMem outside outside').mp words).1.symm
  · exact .inr ⟨more, words⟩

end Continuation

theorem continuesLine_merged {next : Text} (continues : continuesLine previous line = true) :
    continuesLine (merged previous line) next = continuesLine line next := by
  have known := continuation continues
  simp only [continuesLine, known.getLast?_merged, isUnderline, known.underlineMarker?_merged, known.below]

theorem joinWrapped_of_apart {rest : List Text} (apart : ∀ next ∈ rest.head?, continuesLine line next = false) :
    joinWrapped (line :: rest) = line :: joinWrapped rest := by
  cases rest with
  | nil => rfl
  | cons next rest => exact joinWrapped_of_not_continues (apart next rfl) rest

theorem exists_joinWrapped_cons (filled : isFilled line = true) (plain : underlineMarker? line = none)
    (rest : List Text) : ∃ s tail, joinWrapped (line :: rest) = (line ++ s) :: tail ∧ isFilled (line ++ s) = true ∧
      underlineMarker? (line ++ s) = none := by
  induction rest generalizing line with
  | nil => exact ⟨[], [], by rw [List.append_nil]; rfl, by rwa [List.append_nil], by rwa [List.append_nil]⟩
  | cons next rest ih =>
    cases continues : continuesLine line next with
    | true =>
      have known := continuation continues
      obtain ⟨s, tail, shape, filled, plain⟩ := ih known.filled_merged known.underlineMarker?_merged
      rw [joinWrapped_of_continues continues, shape]
      rw [merged, List.append_assoc] at filled plain ⊢
      exact ⟨_, tail, rfl, filled, plain⟩
    | false =>
      rw [joinWrapped_of_not_continues continues]
      exact ⟨[], _, by rw [List.append_nil], by rwa [List.append_nil], by rwa [List.append_nil]⟩

/-- Each logical line is joined from lines that follow each other, and the lines above and below are joined without them. -/
theorem exists_stretch {lines : List Text} {i : Nat} {joined : Text} (found : (joinWrapped lines)[i]? = some joined) :
    ∃ above own below, lines = above ++ own ++ below ∧ joinWrapped own = [joined] ∧ (joinWrapped above).length = i ∧
      joinWrapped lines = joinWrapped above ++ joined :: joinWrapped below := by
  induction lines using joinWrapped_induction generalizing i with
  | nil => cases found
  | single line =>
    cases i with
    | zero =>
      cases found
      exact ⟨[], [joined], [], rfl, rfl, rfl, rfl⟩
    | succ i => cases found
  | continued previous line rest continues ih =>
    rw [joinWrapped_of_continues continues] at found ⊢
    obtain ⟨above, own, below, split, whole, length, parted⟩ := ih found
    rw [parted]
    cases above with
    | nil =>
      cases own with
      | nil => cases whole
      | cons first own =>
        obtain ⟨same, behind⟩ := List.cons.inj split
        subst same behind
        refine ⟨[], previous :: line :: own, below, rfl, ?_, length, rfl⟩
        rw [joinWrapped_of_continues continues, whole]
    | cons first above =>
      obtain ⟨same, behind⟩ := List.cons.inj split
      subst same behind
      rw [← joinWrapped_of_continues continues] at length ⊢
      exact ⟨previous :: line :: above, own, below, rfl, whole, length, rfl⟩
  | apart previous line rest apart ih =>
    rw [joinWrapped_of_not_continues apart] at found ⊢
    cases i with
    | zero =>
      cases found
      exact ⟨[], [joined], line :: rest, rfl, rfl, rfl, rfl⟩
    | succ i =>
      obtain ⟨above, own, below, split, whole, length, parted⟩ := ih found
      -- the line above the first stays apart from it, also without the lines below
      have start : joinWrapped (previous :: above) = previous :: joinWrapped above := by
        cases above with
        | nil => rfl
        | cons first above =>
          obtain ⟨same, -⟩ := List.cons.inj split
          exact joinWrapped_of_not_continues (same ▸ apart) above
      refine ⟨previous :: above, own, below, ?_, whole, ?_, ?_⟩
      · rw [split]
        rfl
      · rw [start, List.length_cons, length]
      · rw [start, parted]
        rfl

/-! ## Stretches between blank lines -/

theorem takeWhile_joinWrapped (lines : List Text) :
    (joinWrapped lines).takeWhile isFilled = joinWrapped (lines.takeWhile isFilled) := by
  induction lines using joinWrapped_induction with
  | nil => rfl
  | single line =>
    change [line].takeWhile isFilled = _
    rw [List.takeWhile_cons, List.takeWhile_nil]
    cases isFilled line <;> rfl
  | continued previous line rest continues ih =>
    have known := continuation continues
    rw [joinWrapped_of_continues continues, ih, List.takeWhile_cons_of_pos known.filled_merged,
      List.takeWhile_cons_of_pos known.filled_above, List.takeWhile_cons_of_pos known.filled_below,
      joinWrapped_of_continues continues]
  | apart previous line rest apart ih =>
    rw [joinWrapped_of_not_continues apart, List.takeWhile_cons, List.takeWhile_cons, ih]
    cases isFilled previous with
    | false => rfl
    | true =>
      rw [List.takeWhile_cons]
      cases isFilled line with
      | false => rfl
      | true => exact (joinWrapped_of_not_continues apart _).symm

theorem dropWhile_joinWrapped (lines : List Text) :
    (joinWrapped lines).dropWhile isFilled = joinWrapped (lines.dropWhile isFilled) := by
  induction lines using joinWrapped_induction with
  | nil => rfl
  | single line =>
    change [line].dropWhile isFilled = _
    rw [List.dropWhile_cons, List.dropWhile_nil]
    cases isFilled line <;> rfl
  | continued previous line rest continues ih =>
    have known := continuation continues
    rw [joinWrapped_of_continues continues, ih, List.dropWhile_cons_of_pos known.filled_merged,
      List.dropWhile_cons_of_pos known.filled_above, List.dropWhile_cons_of_pos known.filled_below]
  | apart previous line rest apart ih =>
    rw [joinWrapped_of_not_continues apart, List.dropWhile_cons, List.dropWhile_cons, ih]
    cases isFilled previous with
    | false => exact (joinWrapped_of_not_continues apart _).symm
    | true => rfl

theorem drop_dropWhile_joinWrapped (lines : List Text) :
    ((joinWrapped lines).dropWhile isFilled).drop 1 = joinWrapped ((lines.dropWhile isFilled).drop 1) := by
  rw [dropWhile_joinWrapped]
  cases below : lines.dropWhile isFilled with
  | nil => rfl
  | cons line rest =>
    have blank : ¬isFilled line = true := by
      have := List.head_dropWhile_not isFilled (l := lines) (by simp [below])
      simpa [below] using this
    rw [joinWrapped_of_apart fun next _ =>
      Bool.eq_false_iff.mpr fun continues => blank (continuation continues).filled_above]
    rfl

/-! ## Headings -/

theorem filterMap_joinWrapped {α : Type} {f : Text → Option α} (plain : ∀ line, underlineMarker? line = none → f line = none)
    (lines : List Text) : (joinWrapped lines).filterMap f = lines.filterMap f := by
  induction lines using joinWrapped_induction with
  | nil | single line => rfl
  | continued previous line rest continues ih =>
    have known := continuation continues
    rw [joinWrapped_of_continues continues, ih, List.filterMap_cons_none (plain _ known.underlineMarker?_merged),
      List.filterMap_cons_none (plain _ known.above), List.filterMap_cons_none (plain _ known.below)]
  | apart previous line rest apart ih =>
    rw [joinWrapped_of_not_continues apart, List.filterMap_cons, ih]
    exact List.filterMap_cons.symm

theorem markers_joinWrapped (lines : List Text) :
    (joinWrapped lines).filterMap underlineMarker? = lines.filterMap underlineMarker? :=
  filterMap_joinWrapped (fun _ plain => plain) lines

theorem hierarchy_joinWrapped (lines : List Text) : hierarchy (joinWrapped lines) = hierarchy lines := by
  rw [hierarchy_eq_eraseDups, markers_joinWrapped, ← hierarchy_eq_eraseDups]

end DocPress.Catalog
