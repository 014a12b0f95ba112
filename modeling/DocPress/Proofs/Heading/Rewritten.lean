import DocPress.Contents
import DocPress.Proofs.Catalog.Fitted
import DocPress.Proofs.Catalog.Wrapped
import DocPress.Proofs.Text.Replaced

namespace DocPress.Placeholder
open Text Heading

def marked (token : Text) (lines : List Text) : Nat → Bool
  | 0 => false
  | above + 1 => (lines[above]?).any (occurs token) && (lines[above + 1]?).any isUnderline

theorem resizeBelow_eq_fitted {token : Text} {lines result rest : List Text} {index : Nat}
    (same : result.length = lines.length) (suffix : lines.drop index = rest) :
    resizeBelow token rest index (fitted (marked token lines) result (index + 1)) =
      fitted (marked token lines) result result.length := by
  induction rest generalizing index with
  | nil =>
    have past : lines.length ≤ index := List.drop_eq_nil_iff.mp suffix
    rw [resizeBelow, fitted_of_length_le (by omega)]
    simp
  | cons line rest ih =>
    have here : lines[index]? = some line := by rw [← List.head?_drop, suffix, List.head?_cons]
    have below : lines.drop (index + 1) = rest := by rw [← List.tail_drop, suffix, List.tail_cons]
    cases rest with
    | nil =>
      have past : lines.length ≤ index + 1 := List.drop_eq_nil_iff.mp below
      rw [resizeBelow, fitted_of_length_le (by omega)]
      simp
    | cons underline rest =>
      have next : lines[index + 1]? = some underline := by rw [← List.head?_drop, below, List.head?_cons]
      have step : (if occurs token line && isUnderline underline then
            resizeAt (fitted (marked token lines) result (index + 1)) (index + 1)
          else fitted (marked token lines) result (index + 1)) = fitted (marked token lines) result (index + 2) := by
        conv_rhs => rw [fitted, marked, here, next, Option.any_some, Option.any_some]
      rw [resizeBelow, step]
      exact ih below

theorem replace_eq_fitted (lines : List Text) (name value : Text) : replace lines name value =
    fitted (marked (token name) lines) (lines.map (replaceAll (token name) value)) lines.length := by
  have same : (lines.map (replaceAll (token name) value)).length = lines.length := List.length_map _
  rw [← same]
  exact resizeBelow_eq_fitted same List.drop_zero

/-- A line that an underline can be fitted to once the value stands in it, unless it holds no placeholder or is blank. -/
def Roomy (name value line : Text) : Prop :=
  occurs (token name) line = true → isFilled (replaceAll (token name) value line) = true →
    3 ≤ (trimEnd (replaceAll (token name) value line)).length

instance (name value line : Text) : Decidable (Roomy name value line) :=
  inferInstanceAs (Decidable (_ → _ → _))

section
variable {lines : List Text} {name value : Text}

theorem bar_mem_token (name : Text) : '|' ∈ token name :=
  List.mem_cons_self

theorem bar_not_mem_of_underline {line : Text} {marker : Marker} (found : underlineMarker? line = some marker) :
    '|' ∉ line :=
  not_mem_of_underline found (by decide) (by cases marker <;> decide)

theorem underlineMarker?_of_occurs {line : Text} (held : occurs (token name) line = true) : underlineMarker? line = none := by
  rw [Option.eq_none_iff_forall_ne_some]
  intro marker found
  exact bar_not_mem_of_underline found (mem_of_occurs (bar_mem_token name) held)

theorem getElem?_map_of_underlined {i : Nat} {marker : Marker} (stood : (lines[i]?).bind underlineMarker? = some marker) :
    (lines.map (replaceAll (token name) value))[i]? = lines[i]? := by
  obtain ⟨line, at_line, found⟩ := Option.bind_eq_some_iff.mp stood
  rw [List.getElem?_map, at_line, Option.map_some,
    replaceAll_of_not_mem (bar_mem_token name) (bar_not_mem_of_underline found)]

theorem marked_succ_iff {above : Nat} : marked (token name) lines (above + 1) = true ↔
    (∃ line, lines[above]? = some line ∧ occurs (token name) line = true) ∧
      ∃ marker, (lines[above + 1]?).bind underlineMarker? = some marker := by
  rw [marked, Bool.and_eq_true, Option.any_eq_true, Option.any_eq_true]
  refine and_congr Iff.rfl ?_
  simp only [isUnderline, Option.isSome_iff_exists, Option.bind_eq_some_iff]
  constructor
  · rintro ⟨line, at_line, marker, found⟩
    exact ⟨marker, line, at_line, found⟩
  · rintro ⟨marker, line, at_line, found⟩
    exact ⟨line, at_line, marker, found⟩

theorem marked_eq_false_of_occurs {i : Nat} {line : Text} (at_line : lines[i]? = some line)
    (held : occurs (token name) line = true) : marked (token name) lines i = false := by
  rw [← Bool.not_eq_true]
  intro chosen
  cases i with
  | zero => cases chosen
  | succ before =>
    obtain ⟨_, marker, underline⟩ := marked_succ_iff.mp chosen
    rw [at_line, Option.bind_some, underlineMarker?_of_occurs held] at underline
    cases underline

theorem fitting?_marked_iff {above : Nat} {title : Text} {marker : Marker}
    (own : marked (token name) lines (above + 1) = true) :
    fitting? (fitted (marked (token name) lines) (lines.map (replaceAll (token name) value)) (above + 1)) (above + 1) =
        some (title, marker) ↔
      ∃ line, lines[above]? = some line ∧ occurs (token name) line = true ∧ title = replaceAll (token name) value line ∧
        isFilled title = true ∧ (lines[above + 1]?).bind underlineMarker? = some marker := by
  obtain ⟨⟨line, at_line, held⟩, other, stood⟩ := marked_succ_iff.mp own
  have passed := marked_eq_false_of_occurs at_line held
  have titled : (fitted (marked (token name) lines) (lines.map (replaceAll (token name) value)) (above + 1))[above]? =
      some (replaceAll (token name) value line) := by
    rw [getElem?_fitted_of_passed passed (by omega), List.getElem?_map, at_line, Option.map_some]
  have below : (fitted (marked (token name) lines) (lines.map (replaceAll (token name) value)) (above + 1))[above + 1]? =
      lines[above + 1]? := by
    rw [getElem?_fitted_of_le (Nat.le_refl _), getElem?_map_of_underlined stood]
  rw [fitting?_eq_some_iff, below]
  constructor
  · rintro ⟨_, position, titled', filled, underlined⟩
    obtain rfl := Nat.succ.inj position
    exact ⟨line, at_line, held, Option.some.inj (titled'.symm.trans titled), filled, underlined⟩
  · rintro ⟨_, at_line', _, rfl, filled, underlined⟩
    obtain rfl := Option.some.inj (at_line.symm.trans at_line')
    exact ⟨above, rfl, titled, filled, underlined⟩

theorem marker_replace_iff {i : Nat} {marker : Marker} (underlined : (lines[i + 1]?).bind underlineMarker? = some marker) :
    ((replace lines name value)[i + 1]?).bind underlineMarker? = some marker ↔
      (∀ title ∈ lines[i]?, Roomy name value title) ∧
        ∀ next ∈ lines[i + 2]?, (lines[i + 3]?).bind underlineMarker? = some marker → Roomy name value next := by
  rw [replace_eq_fitted, marker_fitted_iff, getElem?_map_of_underlined underlined, and_iff_right underlined]
  constructor
  · intro long
    have roomy : ∀ above line, lines[above]? = some line → (lines[above + 1]?).bind underlineMarker? = some marker →
        i + 1 = above + 1 ∨ i + 1 + 2 = above + 1 → Roomy name value line := by
      intro above line at_line stood near held filled
      have own := marked_succ_iff.mpr ⟨⟨line, at_line, held⟩, marker, stood⟩
      obtain ⟨_, below, _⟩ := Option.bind_eq_some_iff.mp stood
      obtain ⟨inside, _⟩ := List.getElem?_eq_some_iff.mp below
      exact long (above + 1) inside own _ ((fitting?_marked_iff own).mpr ⟨line, at_line, held, rfl, filled, stood⟩) near
    exact ⟨fun title at_title => roomy i title at_title underlined (.inl rfl),
      fun next at_next stood => roomy (i + 2) next at_next stood (.inr rfl)⟩
  · rintro ⟨titled, below⟩ index _ own title found near
    cases index with
    | zero => cases own
    | succ above =>
      obtain ⟨line, at_line, held, rfl, filled, stood⟩ := (fitting?_marked_iff own).mp found
      obtain rfl | rfl : above = i ∨ above = i + 2 := by omega
      · exact titled line at_line held filled
      · exact below line at_line stood held filled

end

end DocPress.Placeholder

namespace DocPress.Catalog
open Text Heading

/-! ## Underlines that have all been fitted -/

section
variable {α β : Type} {f : α → Option β} {before after : List α}

theorem filterMap_sublist (kept : List.Forall₂ (fun a b => ∀ x, f b = some x → f a = some x) before after) :
    (after.filterMap f).Sublist (before.filterMap f) := by
  induction kept with
  | nil => exact .slnil
  | @cons a b _ _ first _ ih =>
    cases later : f b with
    | none =>
      rw [List.filterMap_cons_none later]
      refine ih.trans ?_
      rw [List.filterMap_cons]
      split
      · exact List.Sublist.refl _
      · exact List.sublist_cons_self _ _
    | some x =>
      rw [List.filterMap_cons_some later, List.filterMap_cons_some (first x later)]
      exact ih.cons_cons x

theorem forall₂_of_filterMap_eq (kept : List.Forall₂ (fun a b => ∀ x, f b = some x → f a = some x) before after)
    (same : after.filterMap f = before.filterMap f) : List.Forall₂ (fun a b => f b = f a) before after := by
  induction kept with
  | nil => exact .nil
  | @cons a b _ _ first below ih =>
    cases later : f b with
    | some x =>
      rw [List.filterMap_cons_some later, List.filterMap_cons_some (first x later)] at same
      exact .cons (later.trans (first x later).symm) (ih (List.cons.inj same).2)
    | none =>
      rw [List.filterMap_cons_none later] at same
      cases earlier : f a with
      | none =>
        rw [List.filterMap_cons_none earlier] at same
        exact .cons (later.trans earlier.symm) (ih same)
      | some x =>
        rw [List.filterMap_cons_some earlier] at same
        have short := (filterMap_sublist below).length_le
        rw [same, List.length_cons] at short
        exact absurd short (Nat.not_succ_le_self _)

end

variable {catalog : Catalog} {lines : List Text}

theorem marker_resizeAll {i : Nat} {marker : Marker}
    (found : ((resizeAll lines)[i]?).bind underlineMarker? = some marker) :
    (lines[i]?).bind underlineMarker? = some marker ∧ ∀ index < lines.length, ∀ title,
      fitting? (fitted (fun _ => true) lines index) index = some (title, marker) →
        i = index ∨ i + 2 = index → 3 ≤ (trimEnd title).length := by
  rw [resizeAll_eq_fitted, marker_fitted_iff] at found
  exact ⟨found.1, fun index inside => found.2 index inside rfl⟩

theorem spanned_of_markers
    (same : (resizeAll lines).filterMap underlineMarker? = lines.filterMap underlineMarker?) :
    lines.IsChain Spanned := by
  have length : lines.length = (resizeAll lines).length := by rw [resizeAll_eq_fitted, length_fitted]
  have kept : List.Forall₂ (fun line shown => ∀ marker, underlineMarker? shown = some marker → underlineMarker? line = some marker)
      lines (resizeAll lines) := by
    refine List.forall₂_iff_get.mpr ⟨length, fun i inside inside' marker found => ?_⟩
    have stood := (marker_resizeAll (i := i) (by rw [List.getElem?_eq_getElem inside']; exact found)).1
    rwa [List.getElem?_eq_getElem inside] at stood
  have pointwise := forall₂_of_filterMap_eq kept same
  refine List.isChain_iff_getElem.mpr fun i inside underlines filled => ?_
  obtain ⟨marker, found⟩ := Option.isSome_iff_exists.mp underlines
  have underlined : (lines[i + 1]?).bind underlineMarker? = some marker := by
    rw [List.getElem?_eq_getElem inside]
    exact found
  have fit : ((resizeAll lines)[i + 1]?).bind underlineMarker? = some marker := by
    rw [List.getElem?_eq_getElem (length ▸ inside)]
    exact (pointwise.get inside (length ▸ inside)).trans found
  cases kind : underlineMarker? lines[i] with
  | some other =>
    obtain ⟨n, long, visible⟩ := underlineMarker?_eq_some_iff.mp kind
    rwa [visible, List.length_replicate]
  | none =>
    have titled : (fitted (fun _ => true) lines (i + 1))[i]? = some lines[i] :=
      getElem?_fitted_of_plain (List.getElem?_eq_getElem _) kind _
    have stood : ((fitted (fun _ => true) lines (i + 1))[i + 1]?).bind underlineMarker? = some marker := by
      rw [getElem?_fitted_of_le (Nat.le_refl _), underlined]
    exact (marker_resizeAll fit).2 (i + 1) inside _ (fitting?_eq_some_iff.mpr ⟨i, rfl, titled, filled, stood⟩) (.inl rfl)

theorem markers_localize_iff
    (spared : ∀ phrase ∈ catalog.entries, ∀ line ∈ joinWrapped lines, occurs phrase.source line = false) :
    (catalog.localize lines).filterMap underlineMarker? = lines.filterMap underlineMarker? ↔
      (joinWrapped lines).IsChain Spanned := by
  rw [localize_of_spared spared, ← markers_joinWrapped lines]
  refine ⟨spanned_of_markers, fun spanned => ?_⟩
  rw [markers_of_rendered (rendered_resizeAll spanned), List.map_id]

end DocPress.Catalog

namespace DocPress.Heading
open Text Catalog

/-- Headings stay headings where a value takes the place of a placeholder, and where no phrase of a catalog is found also
at their depths, exactly if their underlines are fitted to three characters or more. -/
theorem headings_rewritten (lines : List Text) :
    (∀ name value i marker, (lines[i + 1]?).bind underlineMarker? = some marker →
        (∀ next ∈ lines[i + 2]?, (lines[i + 3]?).bind underlineMarker? = some marker →
          Placeholder.Roomy name value next) →
        (((Placeholder.replace lines name value)[i + 1]?).bind underlineMarker? = some marker ↔
          ∀ title ∈ lines[i]?, Placeholder.Roomy name value title)) ∧
      ∀ catalog : Catalog,
        (∀ phrase ∈ catalog.entries, ∀ line ∈ joinWrapped lines, occurs phrase.source line = false) →
        ((catalog.localize lines).filterMap underlineMarker? = lines.filterMap underlineMarker? ↔
            (joinWrapped lines).IsChain Spanned) ∧
          ((joinWrapped lines).IsChain Spanned → hierarchy (catalog.localize lines) = hierarchy lines ∧
            ∀ level, (normalize (catalog.localize lines) level).map depths = (normalize lines level).map depths) := by
  refine ⟨fun _ _ _ _ underlined below => ?_, fun catalog spared => ?_⟩
  · rw [Placeholder.marker_replace_iff underlined, and_iff_left below]
  · have kept := markers_localize_iff spared
    refine ⟨kept, fun spanned => ⟨?_, depths_normalize_congr (kept.mpr spanned)⟩⟩
    rw [hierarchy_eq_eraseDups, kept.mpr spanned, ← hierarchy_eq_eraseDups]

theorem headings_rewritten_press :
    let lines := ["About |tool|".toList, "============".toList, "|tool|".toList, "======".toList, "A sentence that".toList,
      "goes on.".toList]
    let catalog : Catalog := .ofList [⟨"Preface".toList, "Vorwort".toList⟩]
    ((Placeholder.replace lines "tool".toList "press".toList)[1]?).bind underlineMarker? = some .equals ∧
      hierarchy (catalog.localize lines) = [.equals] := by
  intro lines catalog
  have rewritten := headings_rewritten lines
  have kept := rewritten.1 "tool".toList "press".toList 0 .equals (by decide +kernel) (by decide +kernel)
  have localized := rewritten.2 catalog (by decide +kernel)
  exact ⟨kept.mpr (by decide +kernel), (localized.2 (by decide +kernel)).1.trans (by decide +kernel)⟩

theorem headings_not_rewritten_short :
    (¬∀ (lines : List Text) (name value : Text) (i : Nat) (title : Text) (marker : Marker), lines[i]? = some title →
        isFilled title = true → (lines[i + 1]?).bind underlineMarker? = some marker →
        isFilled (replaceAll (Placeholder.token name) value title) = true →
        ((Placeholder.replace lines name value)[i + 1]?).bind underlineMarker? = some marker) ∧
      (¬∀ (catalog : Catalog) (lines : List Text),
        (∀ phrase ∈ catalog.entries, ∀ line ∈ lines, occurs phrase.source line = false) →
        (catalog.localize lines).filterMap underlineMarker? = lines.filterMap underlineMarker?) ∧
      ¬∀ (catalog : Catalog) (lines : List Text),
        (∀ phrase ∈ catalog.entries, ∀ line ∈ lines, occurs phrase.source line = false) →
        (joinWrapped lines).IsChain Spanned →
        (catalog.localize lines).filterMap underlineMarker? = lines.filterMap underlineMarker? := by
  refine ⟨fun kept => ?_, fun kept => ?_, fun kept => ?_⟩
  · have first := kept ["|a|".toList, "===".toList] "a".toList "x".toList 0 "|a|".toList .equals rfl rfl rfl
      (by decide +kernel)
    revert first
    decide +kernel
  · have first := kept {} ["AB".toList, "===".toList] (by decide +kernel)
    revert first
    decide +kernel
  · have first := kept (.ofList [⟨"foo bar".toList, "x".toList⟩]) ["foo".toList, "bar".toList, "===".toList]
      (by decide +kernel) (by decide +kernel)
    revert first
    decide +kernel

end DocPress.Heading
