import DocPress.Proofs.Catalog.Wrapped
import DocPress.Proofs.Text.Search

namespace DocPress.Catalog
open Text Heading

/-! ## The start of a line -/

theorem afterLead?_append_cons {lead : Text} {c : Char} (outside : c ∉ lead) (s t : Text) :
    afterLead? lead (s ++ c :: t) = (afterLead? lead s).map (· ++ c :: t) := by
  induction lead generalizing s with
  | nil => rfl
  | cons d lead ih =>
    rw [List.mem_cons, not_or] at outside
    cases s with
    | nil => simp [afterLead?, Ne.symm outside.1]
    | cons e s =>
      rw [List.cons_append, afterLead?, afterLead?]
      split
      · exact ih outside.2 s
      · rfl

section
variable {s t : Text} {c : Char} (blank : isBlank s = true) (visible : isSpace c = false)
include blank visible

theorem trimStart_append_cons : trimStart (s ++ c :: t) = c :: t := by
  rw [isBlank, List.all_eq_true] at blank
  rw [trimStart, List.dropWhile_append_of_pos blank, List.dropWhile_cons_of_neg (by simp [visible])]

theorem startsJoined_append_cons : startsJoined (s ++ c :: t) =
    (isJoint c && (s.isEmpty || (afterLead? "   ".toList s).any fun more => !more.isEmpty)) := by
  have outside : c ∉ "   ".toList := by
    rintro member
    obtain rfl : c = ' ' := by simpa using member
    cases visible
  have indented : (s ++ c :: t).head?.any isJoint = (isJoint c && s.isEmpty) := by
    cases s with
    | nil => exact (Bool.and_true _).symm
    | cons d s =>
      have space : isSpace d = true := List.all_eq_true.mp blank d List.mem_cons_self
      have other : isJoint d = false := by
        rw [Bool.eq_false_iff]
        intro joint
        rw [isSpace_of_isJoint joint] at space
        cases space
      rw [List.cons_append, List.head?_cons, Option.any_some, other, List.isEmpty_cons, Bool.and_false]
  rw [startsJoined, indented, afterLead?_append_cons outside, Bool.and_or_distrib_left]
  congr 1
  cases found : afterLead? "   ".toList s with
  | none => rw [Option.map_none, Option.any_none, Bool.and_false]
  | some more =>
    have below : isBlank more = true := by
      rw [afterLead?_eq_some_iff.mp found, isBlank, List.all_append, Bool.and_eq_true] at blank
      exact blank.2
    simp only [Option.map_some, Option.any_some, trimStart_append_cons below visible, List.head?_cons]
    cases more with
    | nil => simp [visible]
    | cons d more =>
      have space : isSpace d = true := List.all_eq_true.mp below d List.mem_cons_self
      simp [space]

end

theorem exists_visible_of_isFilled {line : Text} (filled : isFilled line = true) :
    ∃ s c t, line = s ++ c :: t ∧ isBlank s = true ∧ isSpace c = false := by
  cases found : line.dropWhile isSpace with
  | nil =>
    rw [List.dropWhile_eq_nil_iff, ← List.all_eq_true] at found
    rw [isFilled, isBlank, found] at filled
    cases filled
  | cons c t =>
    refine ⟨line.takeWhile isSpace, c, t, ?_, List.all_takeWhile, ?_⟩
    · rw [← found, List.takeWhile_append_dropWhile]
    · have head := List.head?_dropWhile_not isSpace line
      rw [found] at head
      simpa using head

/-! ## Lines that stay apart -/

section
variable {previous line next : Text}

theorem continuesLine_of_merged (joined : continuesLine line next = true)
    (continues : continuesLine previous (merged line next) = true) : continuesLine previous line = true := by
  have known := continuation joined
  obtain ⟨s, c, t, rfl, blank, visible⟩ := exists_visible_of_isFilled known.filled_above
  have whole : merged (s ++ c :: t) next = s ++ c :: (t ++ ' ' :: next.dropWhile (· == ' ')) := by
    rw [merged, List.append_assoc, List.cons_append]
  rw [continuesLine, whole, startsJoined_append_cons blank visible, trimStart_append_cons blank visible] at continues
  rw [continuesLine, startsJoined_append_cons blank visible, trimStart_append_cons blank visible]
  simp only [Bool.and_eq_true, Bool.not_eq_true', isUnderline, known.above, Option.isSome_none] at continues ⊢
  obtain ⟨⟨joint, -⟩, apart⟩ := continues
  refine ⟨⟨joint, trivial⟩, ?_⟩
  -- what starts a line block starts one also with more text behind it
  rw [Bool.eq_false_iff, ne_eq, startsWith_iff] at apart ⊢
  exact fun block => apart (block.trans (List.prefix_append (c :: t) _))

theorem continuesLine_of_head? {rest : List Text} {first : Text} (head : (joinWrapped (line :: rest)).head? = some first)
    (continues : continuesLine previous first = true) : continuesLine previous line = true := by
  induction rest generalizing line with
  | nil =>
    cases head
    exact continues
  | cons next rest ih =>
    cases joined : continuesLine line next with
    | true =>
      rw [joinWrapped_of_continues joined] at head
      exact continuesLine_of_merged joined (ih head)
    | false =>
      rw [joinWrapped_of_not_continues joined] at head
      cases head
      exact continues

end

theorem isChain_joinWrapped (lines : List Text) :
    (joinWrapped lines).IsChain fun a b => continuesLine a b = false := by
  induction lines using joinWrapped_induction with
  | nil => exact .nil
  | single line => exact .singleton line
  | continued previous line rest continues ih =>
    rw [joinWrapped_of_continues continues]
    exact ih
  | apart previous line rest apart ih =>
    rw [joinWrapped_of_not_continues apart, List.isChain_cons]
    refine ⟨fun first head => ?_, ih⟩
    rw [Bool.eq_false_iff]
    intro continues
    rw [continuesLine_of_head? head continues] at apart
    cases apart

/-! ## What is kept -/

theorem filter_dropWhile_space (t : Text) : (t.dropWhile (· == ' ')).filter (· ≠ ' ') = t.filter (· ≠ ' ') := by
  induction t with
  | nil => rfl
  | cons c t ih =>
    by_cases space : c = ' '
    · subst space
      exact ih
    · rw [List.dropWhile_cons_of_neg (by simpa using space)]

theorem filter_flatten_joinWrapped (lines : List Text) :
    (joinWrapped lines).flatten.filter (· ≠ ' ') = lines.flatten.filter (· ≠ ' ') := by
  induction lines using joinWrapped_induction with
  | nil | single line => rfl
  | continued previous line rest continues ih =>
    rw [joinWrapped_of_continues continues, ih]
    simp only [List.flatten_cons, List.filter_append, merged, List.filter_cons, filter_dropWhile_space]
    simp
  | apart previous line rest apart ih =>
    rw [joinWrapped_of_not_continues apart, List.flatten_cons, List.filter_append, ih, ← List.filter_append]
    rfl

/-- Joining a second time changes nothing; it keeps all characters but spaces, and all underlines. -/
theorem joinWrapped_settles (lines : List Text) :
    joinWrapped (joinWrapped lines) = joinWrapped lines ∧
      (joinWrapped lines).flatten.filter (· ≠ ' ') = lines.flatten.filter (· ≠ ' ') ∧
      (joinWrapped lines).filter isUnderline = lines.filter isUnderline := by
  refine ⟨joinWrapped_eq_self (isChain_joinWrapped lines), filter_flatten_joinWrapped lines, ?_⟩
  have plain : ∀ line, underlineMarker? line = none → Option.guard isUnderline line = none := by
    intro line flat
    simp [Option.guard_eq_none_iff, isUnderline, flat]
  have kept := filterMap_joinWrapped plain lines
  rwa [List.filterMap_eq_filter] at kept

end DocPress.Catalog
