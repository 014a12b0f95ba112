import DocPress.Proofs.Heading.Rewritten

namespace DocPress.Placeholder
open Text Heading

theorem length_replace (lines : List Text) (name value : Text) : (replace lines name value).length = lines.length := by
  rw [replace_eq_fitted, length_fitted, List.length_map]

def Separated (lines : List Text) (i : Nat) : Prop :=
  i = 0 ∨ ∃ above ∈ lines[i - 1]?, isBlank above = true

/-- The lines that a value may change: those that hold the placeholder, and the underlines and overlines of titles that
do. -/
inductive Concerned (lines : List Text) (name : Text) (i : Nat) (line : Text) : Prop
  | holding : occurs (token name) line = true → Concerned lines name i line
  | underline {above title} : i = above + 1 → lines[above]? = some title → occurs (token name) title = true →
      isUnderline line = true → Concerned lines name i line
  | overline {title marker} : lines[i + 1]? = some title → occurs (token name) title = true →
      (lines[i + 2]?).bind underlineMarker? = some marker → underlineMarker? line = some marker → Separated lines i →
      Concerned lines name i line

/-- Directly below line `i`, which has become `shown`, stands a title that held the placeholder, over an underline of the
marker that `shown` has too, and its length is another. -/
def Overrun (lines : List Text) (name value : Text) (i : Nat) (shown : Text) : Prop :=
  ∃ title ∈ lines[i + 1]?, ∃ marker ∈ underlineMarker? shown, occurs (token name) title = true ∧
    isFilled (replaceAll (token name) value title) = true ∧ (lines[i + 2]?).bind underlineMarker? = some marker ∧
    underlineFor (replaceAll (token name) value title) marker ≠ shown

instance (lines : List Text) (name value : Text) (i : Nat) (shown : Text) : Decidable (Overrun lines name value i shown) :=
  inferInstanceAs (Decidable (∃ title ∈ lines[i + 1]?, ∃ marker ∈ underlineMarker? shown, _ ∧ _ ∧ _ ∧ _))

section
variable {lines : List Text} {name value : Text} {i : Nat} {line : Text}

theorem concerned_of_marked {above : Nat} (own : marked (token name) lines (above + 1) = true)
    (at_line : lines[above + 1]? = some line) : Concerned lines name (above + 1) line := by
  obtain ⟨⟨title, at_title, held⟩, marker, underlined⟩ := marked_succ_iff.mp own
  rw [at_line, Option.bind_some] at underlined
  exact .underline rfl at_title held (Option.isSome_of_eq_some underlined)

theorem marked_eq_false_of_unconcerned (at_line : lines[i]? = some line) (unconcerned : ¬Concerned lines name i line) :
    marked (token name) lines i = false := by
  rw [← Bool.not_eq_true]
  intro own
  cases i with
  | zero => cases own
  | succ above => exact unconcerned (concerned_of_marked own at_line)

theorem overrun_iff (own : marked (token name) lines (i + 2) = true) {shown : Text} : Overrun lines name value i shown ↔
    ∃ title marker, fitting? (fitted (marked (token name) lines) (lines.map (replaceAll (token name) value)) (i + 2))
        (i + 2) = some (title, marker) ∧
      underlineMarker? shown = some marker ∧ underlineFor title marker ≠ shown := by
  constructor
  · rintro ⟨line, at_line, marker, shared, held, filled, underlined, apart⟩
    exact ⟨_, marker, (fitting?_marked_iff own).mpr ⟨line, at_line, held, rfl, filled, underlined⟩, shared, apart⟩
  · rintro ⟨_, marker, found, shared, apart⟩
    obtain ⟨line, at_line, held, rfl, filled, underlined⟩ := (fitting?_marked_iff own).mp found
    exact ⟨line, at_line, marker, shared, held, filled, underlined, apart⟩

theorem getElem?_replace_iff (at_line : lines[i]? = some line) (passed : marked (token name) lines i = false) :
    (replace lines name value)[i]? = some (replaceAll (token name) value line) ↔
      ¬Overrun lines name value i (replaceAll (token name) value line) := by
  have length : (lines.map (replaceAll (token name) value)).length = lines.length := List.length_map _
  have before : (fitted (marked (token name) lines) (lines.map (replaceAll (token name) value)) (i + 2))[i]? =
      some (replaceAll (token name) value line) := by
    rw [getElem?_fitted_of_passed passed (Nat.le_refl _), List.getElem?_map, at_line, Option.map_some]
  rw [replace_eq_fitted, ← length, getElem?_fitted_length, fitted]
  by_cases own : marked (token name) lines (i + 2) = true
  · rw [if_pos own, getElem?_resizeAt_above_iff before, overrun_iff own]
  · rw [if_neg own, before]
    refine iff_of_true rfl ?_
    rintro ⟨title, at_title, marker, -, held, -, underlined, -⟩
    exact own (marked_succ_iff.mpr ⟨⟨title, at_title, held⟩, marker, underlined⟩)

end

/-- A document keeps its number of lines. A line that holds the placeholder becomes that line with the value in it, and a
line that the value does not concern stays, exactly if the title below does not overrun it. -/
theorem replace_elsewhere_iff (lines : List Text) (name value : Text) :
    (replace lines name value).length = lines.length ∧
      ∀ i line, lines[i]? = some line →
        (occurs (token name) line = true →
          ((replace lines name value)[i]? = some (replaceAll (token name) value line) ↔
            ¬Overrun lines name value i (replaceAll (token name) value line))) ∧
        (¬Concerned lines name i line →
          ((replace lines name value)[i]? = some line ↔ ¬Overrun lines name value i line)) := by
  refine ⟨length_replace lines name value, fun i line at_line => ⟨fun held => ?_, fun unconcerned => ?_⟩⟩
  · exact getElem?_replace_iff at_line (marked_eq_false_of_occurs at_line held)
  · have free : occurs (token name) line = false := by
      rw [← Bool.not_eq_true]
      exact fun held => unconcerned (.holding held)
    have kept : (replace lines name value)[i]? = some (replaceAll (token name) value line) ↔
        ¬Overrun lines name value i (replaceAll (token name) value line) :=
      getElem?_replace_iff at_line (marked_eq_false_of_unconcerned at_line unconcerned)
    rwa [replaceAll_of_not_occurs free] at kept

theorem replace_elsewhere_iff_press :
    let lines := ["|tool|".toList, "======".toList, [], "Part".toList, "====".toList, "About |tool|".toList, "---".toList]
    (replace lines "tool".toList "press".toList)[0]? = some "press".toList ∧
      (replace lines "tool".toList "press".toList)[4]? = some "====".toList := by
  intro lines
  obtain ⟨-, each⟩ := replace_elsewhere_iff lines "tool".toList "press".toList
  refine ⟨((each 0 "|tool|".toList rfl).1 (by decide +kernel)).mpr (by decide +kernel), ?_⟩
  refine ((each 4 "====".toList rfl).2 ?_).mpr (by decide +kernel)
  rintro (held | ⟨position, at_title, held, -⟩ | ⟨at_title, held, underlined, shared, -⟩)
  · revert held
    decide +kernel
  · obtain rfl := Nat.succ.inj position
    obtain rfl := Option.some.inj at_title
    revert held
    decide +kernel
  · cases underlined
    revert shared
    decide +kernel

theorem replace_not_elsewhere_crowded :
    ¬∀ (lines : List Text) (name value : Text) (i : Nat) (line : Text), lines[i]? = some line →
      ¬Concerned lines name i line → (replace lines name value)[i]? = some line := by
  intro kept
  have first := kept ["Title".toList, "=====".toList, "|a|".toList, "===".toList] "a".toList "Part".toList 1 "=====".toList rfl
    (by
      rintro (held | ⟨position, at_title, held, -⟩ | ⟨-, -, -, -, start | ⟨above, at_above, blank⟩⟩)
      · revert held
        decide +kernel
      · obtain rfl := Nat.succ.inj position
        obtain rfl := Option.some.inj at_title
        revert held
        decide +kernel
      · cases start
      · obtain rfl := Option.some.inj at_above
        revert blank
        decide +kernel)
  revert first
  decide +kernel

end DocPress.Placeholder
