import DocPress.Proofs.Catalog.Longest
import DocPress.Proofs.Heading.Rendered

namespace DocPress.Catalog
open Text Heading

def substituted (catalog : Catalog) (lines : List Text) : List Text :=
  (joinWrapped lines).map catalog.localizeLine

theorem localizeLine_of_spared {catalog : Catalog} {line : Text}
    (spared : ∀ phrase ∈ catalog.entries, occurs phrase.source line = false) : catalog.localizeLine line = line := by
  have unmatched : catalog.longestMatch? line = none :=
    longestMatch?_eq_none_iff.mpr fun phrase member => by simp [← occurs_iff, spared phrase member]
  rw [localizeLine, unmatched]

theorem localize_of_spared {catalog : Catalog} {lines : List Text}
    (spared : ∀ phrase ∈ catalog.entries, ∀ line ∈ joinWrapped lines, occurs phrase.source line = false) :
    catalog.localize lines = resizeAll (joinWrapped lines) := by
  have same : ∀ line ∈ joinWrapped lines, catalog.localizeLine line = line :=
    fun line member => localizeLine_of_spared fun phrase among => spared phrase among line member
  rw [localize, List.map_congr_left same, List.map_id']

theorem resizeAll_eq_fitted (lines : List Text) : resizeAll lines = fitted (fun _ => true) lines lines.length := by
  rw [resizeAll]
  generalize lines.length = k
  induction k with
  | zero => rfl
  | succ k ih => rw [List.range_succ, List.foldl_append, ih, List.foldl_cons, List.foldl_nil, fitted, if_pos rfl]

/-- Directly below the heading at line `i` stands one that has the same marker and a title of another length. -/
def Crowded (lines : List Text) (i : Nat) (title : Text) (marker : Marker) : Prop :=
  ∃ next ∈ lines[i + 2]?, (lines[i + 3]?).bind underlineMarker? = some marker ∧ isFilled next = true ∧
    underlineMarker? next = none ∧ (trimEnd next).length ≠ (trimEnd title).length

instance (lines : List Text) (i : Nat) (title : Text) (marker : Marker) : Decidable (Crowded lines i title marker) :=
  inferInstanceAs (Decidable (∃ next ∈ lines[i + 2]?, (lines[i + 3]?).bind underlineMarker? = some marker ∧
    isFilled next = true ∧ underlineMarker? next = none ∧ (trimEnd next).length ≠ (trimEnd title).length))

section
variable {lines : List Text} {i : Nat} {title : Text} {marker : Marker}

theorem isFilled_of_long (long : 3 ≤ (trimEnd title).length) : isFilled title = true := by
  rw [isFilled, Bool.not_eq_true', ← Bool.not_eq_true, ← trimEnd_eq_nil_iff]
  intro none
  simp [none] at long

theorem underlineFor_eq_iff {other : Text} :
    underlineFor other marker = underlineFor title marker ↔ (trimEnd other).length = (trimEnd title).length := by
  simp [underlineFor, List.replicate_inj]

theorem getElem?_fitted_heading (chosen : Nat → Bool) (own : chosen (i + 1) = true)
    (titled : (fitted chosen lines (i + 1))[i]? = some title) (filled : isFilled title = true)
    (underlined : (lines[i + 1]?).bind underlineMarker? = some marker) :
    (fitted chosen lines (i + 2))[i + 1]? = some (underlineFor title marker) ∧
      (fitted chosen lines (i + 3))[i + 1]? = some (underlineFor title marker) := by
  have stood : ((fitted chosen lines (i + 1))[i + 1]?).bind underlineMarker? = some marker := by
    rw [getElem?_fitted_of_le (Nat.le_refl _), underlined]
  have found := fitting?_eq_some_iff.mpr ⟨i, rfl, titled, filled, stood⟩
  have here : (fitted chosen lines (i + 2))[i + 1]? = some (underlineFor title marker) := by
    rw [fitted, if_pos own, getElem?_resizeAt_of_some found, if_pos ⟨.inl rfl, stood⟩]
  exact ⟨here, by rw [getElem?_fitted_succ (by omega) (by omega), here]⟩

theorem title_below {below : Text} (fit : (fitted (fun _ => true) lines (i + 2))[i + 1]? = some (underlineFor title marker))
    (long : 3 ≤ (trimEnd title).length) (shown : (fitted (fun _ => true) lines (i + 3))[i + 2]? = some below) :
    ∃ next, lines[i + 2]? = some next ∧ (underlineMarker? next = none → below = next) ∧
      (underlineMarker? next ≠ none → (trimEnd below).length = (trimEnd title).length) := by
  obtain ⟨inside, _⟩ := List.getElem?_eq_some_iff.mp shown
  rw [length_fitted] at inside
  refine ⟨lines[i + 2], List.getElem?_eq_getElem inside, fun plain => ?_, fun underlines => ?_⟩
  · rw [getElem?_fitted_of_plain (List.getElem?_eq_getElem inside) plain] at shown
    exact (Option.some.inj shown).symm
  · obtain ⟨other, found⟩ := Option.ne_none_iff_exists'.mp underlines
    have filled : isFilled (underlineFor title marker) = true :=
      isFilled_of_underline (underlineMarker?_underlineFor long marker)
    have underlined : (lines[i + 1 + 1]?).bind underlineMarker? = some other := by
      rw [List.getElem?_eq_getElem inside, Option.bind_some, found]
    have again := (getElem?_fitted_heading (fun _ => true) rfl fit filled underlined).1
    rw [again] at shown
    rw [← Option.some.inj shown, underlineFor, trimEnd_replicate, List.length_replicate, underlineFor, trimEnd_replicate,
      List.length_replicate]

theorem crowded_iff (fit : (fitted (fun _ => true) lines (i + 2))[i + 1]? = some (underlineFor title marker))
    (long : 3 ≤ (trimEnd title).length) : Crowded lines i title marker ↔
      ∃ below, fitting? (fitted (fun _ => true) lines (i + 3)) (i + 3) = some (below, marker) ∧
        (trimEnd below).length ≠ (trimEnd title).length := by
  have same : ((fitted (fun _ => true) lines (i + 3))[i + 3]?).bind underlineMarker? =
      (lines[i + 3]?).bind underlineMarker? := by rw [getElem?_fitted_of_le (Nat.le_refl _)]
  constructor
  · rintro ⟨next, at_next, underlined, filled, plain, apart⟩
    have shown : (fitted (fun _ => true) lines (i + 3))[i + 2]? = some next := getElem?_fitted_of_plain at_next plain _
    exact ⟨next, fitting?_eq_some_iff.mpr ⟨i + 2, rfl, shown, filled, same.trans underlined⟩, apart⟩
  · rintro ⟨below, found, apart⟩
    obtain ⟨above, position, shown, filled, underlined⟩ := fitting?_eq_some_iff.mp found
    obtain rfl : above = i + 2 := by omega
    obtain ⟨next, at_next, own, fit_already⟩ := title_below fit long shown
    cases plain : underlineMarker? next with
    | some other => exact absurd (fit_already (by rw [plain]; exact Option.some_ne_none other)) apart
    | none =>
      obtain rfl := own plain
      exact ⟨below, at_next, same.symm.trans underlined, filled, plain, apart⟩

theorem getElem?_resizeAll_iff (titled : lines[i]? = some title) (plain : underlineMarker? title = none)
    (long : 3 ≤ (trimEnd title).length) (underlined : (lines[i + 1]?).bind underlineMarker? = some marker) :
    (resizeAll lines)[i + 1]? = some (underlineFor title marker) ↔ ¬Crowded lines i title marker := by
  obtain ⟨fit, still⟩ := getElem?_fitted_heading (fun _ => true) rfl
    (getElem?_fitted_of_plain titled plain (i + 1)) (isFilled_of_long long) underlined
  have stood : ((fitted (fun _ => true) lines (i + 3))[i + 1]?).bind underlineMarker? = some marker := by
    rw [still, Option.bind_some, underlineMarker?_underlineFor long]
  rw [crowded_iff fit long, resizeAll_eq_fitted, getElem?_fitted_length, fitted, if_pos rfl]
  cases found : fitting? (fitted (fun _ => true) lines (i + 3)) (i + 3) with
  | none =>
    rw [resizeAt_of_none found]
    exact iff_of_true still (by rintro ⟨_, ⟨⟩, _⟩)
  | some heading =>
    obtain ⟨below, other⟩ := heading
    rw [getElem?_resizeAt_of_some found, stood]
    by_cases shared : other = marker
    · subst shared
      rw [if_pos ⟨.inr rfl, rfl⟩, Option.some.injEq, underlineFor_eq_iff]
      simp
    · rw [if_neg (fun written => shared (Option.some.inj written.2).symm)]
      refine iff_of_true still ?_
      rintro ⟨_, ⟨⟩, _⟩
      exact shared rfl

/-- The title of a file in another language stays, and its underline gets the length of the title, unless the heading
directly below has the same marker and a title of another length. -/
theorem localize_fitted_iff {catalog : Catalog} (titled : (substituted catalog lines)[i]? = some title)
    (plain : underlineMarker? title = none) (long : 3 ≤ (trimEnd title).length)
    (underlined : ((substituted catalog lines)[i + 1]?).bind underlineMarker? = some marker) :
    (catalog.localize lines)[i]? = some title ∧
      ((catalog.localize lines)[i + 1]? = some (List.replicate (trimEnd title).length marker.toChar) ↔
        ¬Crowded (substituted catalog lines) i title marker) := by
  have pass : catalog.localize lines = resizeAll (substituted catalog lines) := rfl
  rw [pass]
  refine ⟨?_, getElem?_resizeAll_iff titled plain long underlined⟩
  rw [resizeAll_eq_fitted, getElem?_fitted_of_plain titled plain]

end

theorem localize_fitted_iff_translated :
    let catalog : Catalog := .ofList [⟨"Start".toList, "Beginning".toList⟩]
    let lines := ["Start".toList, "=====".toList, "Part".toList, "----".toList]
    (catalog.localize lines)[1]? = some "=========".toList := by
  intro catalog lines
  have titled : (substituted catalog lines)[0]? = some "Beginning".toList := by decide +kernel
  have underlined : ((substituted catalog lines)[0 + 1]?).bind underlineMarker? = some .equals := by decide +kernel
  exact (localize_fitted_iff titled (by decide) (by decide) underlined).2.mpr (by decide +kernel)

theorem localize_not_fitted_crowded :
    ¬∀ (catalog : Catalog) (lines : List Text) (i : Nat) (title : Text) (marker : Marker),
      (substituted catalog lines)[i]? = some title → isFilled title = true → underlineMarker? title = none →
      3 ≤ (trimEnd title).length → ((substituted catalog lines)[i + 1]?).bind underlineMarker? = some marker →
      (catalog.localize lines)[i + 1]? = some (List.replicate (trimEnd title).length marker.toChar) ∧
        (catalog.localize lines)[i]? = some title := by
  intro fitted
  have first := (fitted {} ["Title".toList, "=====".toList, "Part".toList, "====".toList] 0 "Title".toList .equals
    (by decide +kernel) (by decide +kernel) (by decide +kernel) (by decide +kernel) (by decide +kernel)).1
  revert first
  decide +kernel

end DocPress.Catalog
