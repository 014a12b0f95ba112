import DocPress.Proofs.Heading.Underline

/-!
# Fitting the underlines of a document

Fitting at a line looks at the title above it and writes to the line and, where it has the same marker, to the line two
above (`getElem?_resizeAt`). In a pass from the top, some lines are fitted one after another. So a line is as it was when
the pass comes to it, and stays as it is once the pass is three lines further (`getElem?_fitted_of_le`,
`getElem?_fitted_of_settled`).
-/

namespace DocPress.Heading
open Text

def fitting? (lines : List Text) : Nat → Option (Text × Marker)
  | 0 => none
  | above + 1 =>
    (lines[above]?.filter isFilled).bind fun title =>
      ((lines[above + 1]?).bind underlineMarker?).map fun marker => (title, marker)

theorem fitting?_eq_some_iff {lines : List Text} {index : Nat} {title : Text} {marker : Marker} :
    fitting? lines index = some (title, marker) ↔ ∃ above, index = above + 1 ∧ lines[above]? = some title ∧
      isFilled title = true ∧ (lines[index]?).bind underlineMarker? = some marker := by
  cases index with
  | zero => simp [fitting?]
  | succ above =>
    simp only [fitting?, Option.bind_eq_some_iff, Option.map_eq_some_iff, Option.filter_eq_some_iff, Prod.mk.injEq,
      Nat.add_right_cancel_iff, exists_eq_left']
    constructor
    · rintro ⟨_, ⟨titled, filled⟩, _, underlined, rfl, rfl⟩
      exact ⟨titled, filled, underlined⟩
    · rintro ⟨titled, filled, underlined⟩
      exact ⟨_, ⟨titled, filled⟩, _, underlined, rfl, rfl⟩

theorem getElem?_set_of_underlined {lines : List Text} {index i : Nat} {marker : Marker} {line : Text}
    (underlined : (lines[index]?).bind underlineMarker? = some marker) :
    (lines.set index line)[i]? = if i = index then some line else lines[i]? := by
  obtain ⟨old, below, _⟩ := Option.bind_eq_some_iff.mp underlined
  obtain ⟨inside, _⟩ := List.getElem?_eq_some_iff.mp below
  rw [List.getElem?_set, if_pos inside]
  exact if_congr eq_comm rfl rfl

theorem resizeAt_of_none {lines : List Text} {index : Nat} (none : fitting? lines index = none) :
    resizeAt lines index = lines := by
  rw [resizeAt.eq_def]
  split
  · rfl
  · split
    · next above _ _ title marker titled underlined =>
      split
      · rfl
      · next filled =>
        have found := fitting?_eq_some_iff.mpr ⟨above, rfl, titled, by simpa [isFilled] using filled, underlined⟩
        rw [none] at found
        cases found
    · rfl

theorem getElem?_resizeAt_of_some {lines : List Text} {index : Nat} {title : Text} {marker : Marker}
    (found : fitting? lines index = some (title, marker)) (i : Nat) : (resizeAt lines index)[i]? =
      if (i = index ∨ i + 2 = index) ∧ (lines[i]?).bind underlineMarker? = some marker then
        some (underlineFor title marker)
      else lines[i]? := by
  obtain ⟨above, rfl, titled, filled, underlined⟩ := fitting?_eq_some_iff.mp found
  have visible : isBlank title = false := by simpa [isFilled] using filled
  rw [resizeAt, titled, underlined]
  simp only [visible, Bool.false_eq_true, if_false]
  cases above with
  | zero =>
    simp only
    rw [getElem?_set_of_underlined underlined]
    by_cases here : i = 0 + 1
    · simp [here, underlined]
    · simp [here]
  | succ before =>
    simp only
    by_cases overlined : (lines[before]?).bind underlineMarker? = some marker
    · have still : ((lines.set (before + 1 + 1) (underlineFor title marker))[before]?).bind underlineMarker? = some marker := by
        rw [List.getElem?_set_ne (by omega), overlined]
      rw [if_pos overlined, getElem?_set_of_underlined still, getElem?_set_of_underlined underlined]
      by_cases here : i = before
      · simp [here, overlined]
      · by_cases below : i = before + 1 + 1
        · simp [below, underlined]
        · simp [here, below]
    · rw [if_neg overlined, getElem?_set_of_underlined underlined]
      by_cases here : i = before
      · have apart : before ≠ before + 1 + 1 := by omega
        simp [here, overlined, apart]
      · by_cases below : i = before + 1 + 1
        · simp [below, underlined]
        · simp [here, below]

theorem getElem?_resizeAt (lines : List Text) {index i : Nat} (apart : i ≠ index) (apart' : i + 2 ≠ index) :
    (resizeAt lines index)[i]? = lines[i]? := by
  cases found : fitting? lines index with
  | none => rw [resizeAt_of_none found]
  | some heading => rw [getElem?_resizeAt_of_some found, if_neg (by simp [apart, apart'])]

theorem getElem?_resizeAt_of_plain {lines : List Text} {i : Nat} {line : Text} (at_line : lines[i]? = some line)
    (plain : underlineMarker? line = none) (index : Nat) : (resizeAt lines index)[i]? = some line := by
  cases found : fitting? lines index with
  | none => rw [resizeAt_of_none found, at_line]
  | some heading =>
    rw [getElem?_resizeAt_of_some found, at_line, Option.bind_some, plain, if_neg (by simp)]

theorem getElem?_resizeAt_above_iff {lines : List Text} {i : Nat} {line : Text} (at_line : lines[i]? = some line) :
    (resizeAt lines (i + 2))[i]? = some line ↔
      ¬∃ title marker, fitting? lines (i + 2) = some (title, marker) ∧ underlineMarker? line = some marker ∧
        underlineFor title marker ≠ line := by
  cases found : fitting? lines (i + 2) with
  | none => simp [resizeAt_of_none found, at_line]
  | some heading =>
    obtain ⟨title, marker⟩ := heading
    rw [getElem?_resizeAt_of_some found, at_line, Option.bind_some]
    by_cases shared : underlineMarker? line = some marker
    · rw [if_pos ⟨.inr rfl, shared⟩]
      simp [shared]
    · rw [if_neg fun written => shared written.2]
      refine iff_of_true rfl ?_
      rintro ⟨_, _, ⟨⟩, shared', -⟩
      exact shared shared'

theorem underlineMarker?_underlineFor {title : Text} (long : 3 ≤ (trimEnd title).length) (marker : Marker) :
    underlineMarker? (underlineFor title marker) = some marker :=
  underlineMarker?_replicate marker long

theorem underlineMarker?_underlineFor_iff {title : Text} {marker other : Marker} :
    underlineMarker? (underlineFor title other) = some marker ↔ other = marker ∧ 3 ≤ (trimEnd title).length := by
  by_cases long : 3 ≤ (trimEnd title).length
  · rw [underlineMarker?_underlineFor long, Option.some.injEq, and_iff_left long]
  · rw [underlineFor, underlineMarker?_replicate_short other (Nat.not_le.mp long)]
    simp [long]

theorem marker_resizeAt_iff {lines : List Text} {index i : Nat} {marker : Marker} :
    ((resizeAt lines index)[i]?).bind underlineMarker? = some marker ↔
      (lines[i]?).bind underlineMarker? = some marker ∧ ∀ title, fitting? lines index = some (title, marker) →
        i = index ∨ i + 2 = index → 3 ≤ (trimEnd title).length := by
  cases found : fitting? lines index with
  | none => simp [resizeAt_of_none found]
  | some heading =>
    obtain ⟨title, other⟩ := heading
    rw [getElem?_resizeAt_of_some found]
    split
    · next written =>
      obtain ⟨near, stood⟩ := written
      rw [Option.bind_some, underlineMarker?_underlineFor_iff, stood, Option.some.injEq]
      refine and_congr_right fun same => ⟨fun long _ found' _ => ?_, fun long => long title (by rw [same]) near⟩
      cases found'
      exact long
    · next unwritten =>
      refine ⟨fun stood => ⟨stood, fun _ found' near => ?_⟩, And.left⟩
      cases found'
      exact absurd ⟨near, stood⟩ unwritten

@[simp]
theorem length_resizeAt (lines : List Text) (index : Nat) : (resizeAt lines index).length = lines.length := by
  rw [resizeAt.eq_def]
  split
  · rfl
  · split
    · split
      · rfl
      · split
        · rw [List.length_set]
        · simp only
          split <;> simp only [List.length_set]
    · rfl

/-! ## A pass from the top -/

/-- The lines once the pass has come to line `k`, where it fits the lines that are `chosen`. -/
def fitted (chosen : Nat → Bool) (lines : List Text) : Nat → List Text
  | 0 => lines
  | k + 1 => if chosen k then resizeAt (fitted chosen lines k) k else fitted chosen lines k

section
variable {chosen : Nat → Bool} {lines : List Text} {i k : Nat}

theorem length_fitted (chosen : Nat → Bool) (lines : List Text) (k : Nat) :
    (fitted chosen lines k).length = lines.length := by
  induction k with
  | zero => rfl
  | succ k ih =>
    rw [fitted]
    split
    · rw [length_resizeAt, ih]
    · exact ih

theorem getElem?_fitted_succ (apart : i ≠ k) (apart' : i + 2 ≠ k) :
    (fitted chosen lines (k + 1))[i]? = (fitted chosen lines k)[i]? := by
  rw [fitted]
  split
  · exact getElem?_resizeAt _ apart apart'
  · rfl

theorem getElem?_fitted_of_le (ahead : k ≤ i) : (fitted chosen lines k)[i]? = lines[i]? := by
  induction k with
  | zero => rfl
  | succ k ih => rw [getElem?_fitted_succ (by omega) (by omega), ih (by omega)]

theorem getElem?_fitted_of_settled (behind : i + 3 ≤ k) :
    (fitted chosen lines k)[i]? = (fitted chosen lines (i + 3))[i]? := by
  induction k, behind using Nat.le_induction with
  | base => rfl
  | succ k behind ih => rw [getElem?_fitted_succ (by omega) (by omega), ih]

theorem marker_fitted_iff {marker : Marker} : ((fitted chosen lines k)[i]?).bind underlineMarker? = some marker ↔
    (lines[i]?).bind underlineMarker? = some marker ∧ ∀ index < k, chosen index = true →
      ∀ title, fitting? (fitted chosen lines index) index = some (title, marker) →
        i = index ∨ i + 2 = index → 3 ≤ (trimEnd title).length := by
  induction k with
  | zero => simp [fitted]
  | succ k ih =>
    rw [fitted, Nat.forall_lt_succ_right, ← and_assoc, ← ih]
    split
    · next own =>
      rw [marker_resizeAt_iff]
      simp [own]
    · next other => simp [other]

theorem fitted_of_length_le (past : lines.length ≤ k) : fitted chosen lines k = fitted chosen lines lines.length := by
  induction k, past using Nat.le_induction with
  | base => rfl
  | succ k past ih =>
    have none : fitting? (fitted chosen lines k) k = none := by
      rw [Option.eq_none_iff_forall_ne_some]
      rintro ⟨title, marker⟩ found
      obtain ⟨_, _, _, _, underlined⟩ := fitting?_eq_some_iff.mp found
      rw [List.getElem?_eq_none (by rw [length_fitted]; exact past)] at underlined
      cases underlined
    rw [fitted, resizeAt_of_none none, ite_self, ih]

theorem getElem?_fitted_length : (fitted chosen lines lines.length)[i]? = (fitted chosen lines (i + 3))[i]? := by
  rw [← fitted_of_length_le (Nat.le_max_left lines.length (i + 3)), getElem?_fitted_of_settled (Nat.le_max_right _ _)]

theorem getElem?_fitted_cases {line : Text} (at_line : (fitted chosen lines k)[i]? = some line) :
    lines[i]? = some line ∨ ∃ title marker, line = underlineFor title marker := by
  induction k with
  | zero => exact .inl at_line
  | succ k ih =>
    rw [fitted] at at_line
    split at at_line
    · cases found : fitting? (fitted chosen lines k) k with
      | none =>
        rw [resizeAt_of_none found] at at_line
        exact ih at_line
      | some heading =>
        obtain ⟨title, marker⟩ := heading
        rw [getElem?_resizeAt_of_some found] at at_line
        split at at_line
        · exact .inr ⟨title, marker, (Option.some.inj at_line).symm⟩
        · exact ih at_line
    · exact ih at_line

theorem getElem?_fitted_of_plain {line : Text} (at_line : lines[i]? = some line) (plain : underlineMarker? line = none)
    (k : Nat) : (fitted chosen lines k)[i]? = some line := by
  induction k with
  | zero => exact at_line
  | succ k ih =>
    rw [fitted]
    split
    · exact getElem?_resizeAt_of_plain ih plain k
    · exact ih

theorem getElem?_fitted_of_passed (passed : chosen i = false) (near : k ≤ i + 2) :
    (fitted chosen lines k)[i]? = lines[i]? := by
  by_cases ahead : k ≤ i
  · exact getElem?_fitted_of_le ahead
  · obtain rfl | rfl : k = i + 1 ∨ k = i + 2 := by omega
    · rw [fitted, passed, if_neg (by simp), getElem?_fitted_of_le (Nat.le_refl i)]
    · rw [getElem?_fitted_succ (by omega) (by omega), fitted, passed, if_neg (by simp),
        getElem?_fitted_of_le (Nat.le_refl i)]

end

end DocPress.Heading
