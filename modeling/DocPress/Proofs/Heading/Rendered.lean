import DocPress.Catalog.Basic
import DocPress.Proofs.Heading.Fitted
import DocPress.Proofs.Heading.Hierarchy
import Mathlib.Data.List.Chain
import Mathlib.Data.List.Forall2

namespace DocPress.Heading
open Text

/-- A line and what stands for it where the markers have been mapped: an underline may have another length, and white
space at the end does not count. -/
structure Rendered (f : Marker → Marker) (line shown : Text) : Prop where
  marker : underlineMarker? shown = (underlineMarker? line).map f
  plain : underlineMarker? line = none → trimEnd shown = trimEnd line

theorem Rendered.refl (line : Text) : Rendered id line line :=
  ⟨Option.map_id_apply.symm, fun _ => rfl⟩

theorem Rendered.trans {f g : Marker → Marker} {line middle shown : Text} (first : Rendered f line middle)
    (second : Rendered g middle shown) : Rendered (g ∘ f) line shown where
  marker := by rw [second.marker, first.marker, Option.map_map]
  plain unmarked := by
    have plain : underlineMarker? middle = none := by rw [first.marker, unmarked, Option.map_none]
    rw [second.plain plain, first.plain unmarked]

theorem isFilled_of_underline {line : Text} {marker : Marker} (found : underlineMarker? line = some marker) :
    isFilled line = true := by
  rw [isFilled, Bool.not_eq_true', ← Bool.not_eq_true]
  intro blank
  rw [underlineMarker?_eq_none_of_blank blank] at found
  cases found

theorem Rendered.isFilled {f : Marker → Marker} {line shown : Text} (rendered : Rendered f line shown) :
    isFilled shown = isFilled line := by
  cases found : underlineMarker? line with
  | none =>
    have visible := rendered.plain found
    rw [Text.isFilled, Text.isFilled, ← isBlank_trimEnd, visible, isBlank_trimEnd]
  | some marker =>
    have shown := rendered.marker.trans (congrArg (Option.map f) found)
    rw [isFilled_of_underline found, isFilled_of_underline shown]

theorem markers_of_rendered {f : Marker → Marker} {lines shown : List Text}
    (rendered : List.Forall₂ (Rendered f) lines shown) :
    shown.filterMap underlineMarker? = (lines.filterMap underlineMarker?).map f := by
  induction rendered with
  | nil => rfl
  | @cons line _ _ _ first _ ih =>
    rw [List.filterMap_cons, List.filterMap_cons, first.marker, ih]
    cases underlineMarker? line <;> rfl

theorem hierarchy_of_rendered {lines shown : List Text} (rendered : List.Forall₂ (Rendered id) lines shown) :
    hierarchy shown = hierarchy lines := by
  rw [hierarchy_eq_eraseDups, markers_of_rendered rendered, List.map_id, ← hierarchy_eq_eraseDups]

/-! ## Moving headings -/

def movedMarker (markers : List Marker) (level : Nat) (marker : Marker) : Marker :=
  (globalMarker? markers marker level).getD marker

theorem rendered_normalizeLine (markers : List Marker) (level : Nat) (line : Text) :
    Rendered (movedMarker markers level) line (normalizeLine markers level line) where
  marker := by
    cases found : underlineMarker? line with
    | none => rw [normalizeLine_of_none found, underlineMarker?_trimEnd, found, Option.map_none]
    | some marker =>
      obtain ⟨n, long, visible⟩ := underlineMarker?_eq_some_iff.mp found
      cases moved : globalMarker? markers marker level with
      | none => simp [normalizeLine, found, moved, movedMarker]
      | some other =>
        have normalized : normalizeLine markers level line = List.replicate (trimEnd line).length other.toChar := by
          simp [normalizeLine, found, moved]
        rw [normalized, visible, List.length_replicate, underlineMarker?_replicate other long, Option.map_some,
          movedMarker, moved, Option.getD_some]
  plain unmarked := by rw [normalizeLine_of_none unmarked, trimEnd_trimEnd]

theorem depth_movedMarker_le {markers : List Marker} {level higher : Nat} (le : higher ≤ level)
    (fits : level + markers.length ≤ Marker.all.length) (marker : Marker) :
    (movedMarker markers higher marker).depth ≤ (movedMarker markers level marker).depth := by
  rw [movedMarker, movedMarker, globalMarker?, globalMarker?]
  by_cases member : marker ∈ markers
  · have position := List.idxOf_lt_length_of_mem member
    obtain ⟨deep, located⟩ := Marker.exists_ofDepth? (n := level + markers.idxOf marker) (by omega)
    obtain ⟨shallow, located'⟩ := Marker.exists_ofDepth? (n := higher + markers.idxOf marker) (by omega)
    have depth := Marker.ofDepth?_eq_some_iff.mp located
    have depth' := Marker.ofDepth?_eq_some_iff.mp located'
    rw [idxOf?_of_mem member, Option.bind_some, Option.bind_some, located, located', Option.getD_some, Option.getD_some]
    omega
  · rw [List.idxOf?_eq_none_iff.mpr member]
    exact Nat.le_refl _

/-! ## Fitting underlines -/

def Spanned (title line : Text) : Prop :=
  isUnderline line = true → isFilled title = true → 3 ≤ (trimEnd title).length

instance : DecidableRel Spanned := fun title line =>
  inferInstanceAs (Decidable (isUnderline line = true → isFilled title = true → 3 ≤ (trimEnd title).length))

theorem exists_getElem?_of_forall₂ {R : Text → Text → Prop} {lines others : List Text}
    (related : List.Forall₂ R lines others) {i : Nat} {other : Text} (found : others[i]? = some other) :
    ∃ line, lines[i]? = some line ∧ R line other := by
  induction related generalizing i with
  | nil => cases found
  | cons first _ ih =>
    cases i with
    | zero =>
      cases found
      exact ⟨_, rfl, first⟩
    | succ i => exact ih found

variable {lines current : List Text} {index : Nat} {title : Text} {marker : Marker}

theorem long_of_spanned (spanned : lines.IsChain Spanned) (rendered : List.Forall₂ (Rendered id) lines current)
    (found : fitting? current index = some (title, marker)) : 3 ≤ (trimEnd title).length := by
  obtain ⟨above, rfl, titled, filled, underlined⟩ := fitting?_eq_some_iff.mp found
  obtain ⟨underline, below, underlines⟩ := Option.bind_eq_some_iff.mp underlined
  obtain ⟨first, at_first, shown⟩ := exists_getElem?_of_forall₂ rendered titled
  obtain ⟨second, at_second, under⟩ := exists_getElem?_of_forall₂ rendered below
  cases plain : underlineMarker? first with
  | some other =>
    have shown_marker := shown.marker.trans (congrArg (Option.map id) plain)
    obtain ⟨n, long, visible⟩ := underlineMarker?_eq_some_iff.mp shown_marker
    rwa [visible, List.length_replicate]
  | none =>
    have marks : underlineMarker? second = some marker := by
      rw [← underlines, under.marker, Option.map_id_apply]
    have visible : Text.isFilled first = true := by rw [← shown.isFilled, filled]
    obtain ⟨_, rfl⟩ := List.getElem?_eq_some_iff.mp at_first
    obtain ⟨inside, rfl⟩ := List.getElem?_eq_some_iff.mp at_second
    rw [shown.plain plain]
    exact List.isChain_iff_getElem.mp spanned above inside (Option.isSome_iff_exists.mpr ⟨marker, marks⟩) visible

theorem rendered_resizeAt (spanned : lines.IsChain Spanned) (rendered : List.Forall₂ (Rendered id) lines current)
    (index : Nat) : List.Forall₂ (Rendered id) lines (resizeAt current index) := by
  cases found : fitting? current index with
  | none =>
    rw [resizeAt_of_none found]
    exact rendered
  | some heading =>
    obtain ⟨title, marker⟩ := heading
    have long := long_of_spanned spanned rendered found
    rw [List.forall₂_iff_get]
    refine ⟨by rw [length_resizeAt, rendered.length_eq], fun i inside inside' => ?_⟩
    have within : i < current.length := by rwa [length_resizeAt] at inside'
    have at_current : current[i]? = some current[i] := List.getElem?_eq_getElem within
    have kept : Rendered id lines[i] current[i] := rendered.get inside within
    have shown := (List.getElem?_eq_getElem inside').symm.trans (getElem?_resizeAt_of_some found i)
    rw [List.get_eq_getElem, List.get_eq_getElem]
    rw [at_current] at shown
    split at shown
    · next written =>
      -- the fitted underline stands where one of its marker stood
      have original : underlineMarker? lines[i] = some marker := by
        rw [← Option.map_id_apply (x := underlineMarker? lines[i]), ← kept.marker]
        exact written.2
      rw [Option.some.inj shown]
      refine ⟨?_, fun plain => ?_⟩
      · rw [underlineMarker?_underlineFor long, original, Option.map_id_apply]
      · rw [original] at plain
        cases plain
    · rw [Option.some.inj shown]
      exact kept

end DocPress.Heading

namespace DocPress.Catalog
open Text Heading

theorem rendered_resizeAll {lines : List Text} (spanned : lines.IsChain Spanned) :
    List.Forall₂ (Rendered id) lines (resizeAll lines) := by
  rw [resizeAll]
  exact List.foldlRecOn (motive := fun current => List.Forall₂ (Rendered id) lines current) _ _
    (List.forall₂_same.mpr fun line _ => Rendered.refl line) fun _ rendered index _ =>
      rendered_resizeAt spanned rendered index

end DocPress.Catalog
