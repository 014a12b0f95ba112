import DocPress.Proofs.Heading.Rendered

namespace DocPress.Heading
open Text

/-! ## The order of first appearance -/

theorem hierarchy_map_of_rendered {f : Marker → Marker} {lines shown : List Text}
    (rendered : List.Forall₂ (Rendered f) lines shown) (apart : Set.InjOn f {marker | marker ∈ hierarchy lines}) :
    hierarchy shown = (hierarchy lines).map f := by
  rw [hierarchy_eq_eraseDups, markers_of_rendered rendered, Keyed.eraseDups_map, ← hierarchy_eq_eraseDups]
  refine apart.mono fun marker member => ?_
  change marker ∈ hierarchy lines
  rw [hierarchy_eq_eraseDups]
  exact List.mem_eraseDups.mpr member

theorem idxOf_map {f : Marker → Marker} {markers : List Marker} (apart : Set.InjOn f {marker | marker ∈ markers})
    {marker : Marker} (member : marker ∈ markers) : (markers.map f).idxOf (f marker) = markers.idxOf marker := by
  induction markers with
  | nil => cases member
  | cons first markers ih =>
    rw [List.map_cons, List.idxOf_cons, List.idxOf_cons]
    have same : (f first == f marker) = (first == marker) := by
      rw [Bool.eq_iff_iff, beq_iff_eq, beq_iff_eq, apart.eq_iff List.mem_cons_self member]
    rw [same]
    by_cases here : first = marker
    · simp [here]
    · have below := (List.mem_cons.mp member).resolve_left (Ne.symm here)
      rw [ih (apart.mono fun marker among => List.mem_cons_of_mem _ among) below]

/-! ## Moving headings that have been moved -/

/-- A line of a file and what it is in the document: the underlines of the marker that comes as number `position` get
the marker of the depth so far below the level, and other lines stay no underlines. -/
inductive Moved (markers : List Marker) (level : Nat) (line : Text) : Text → Prop
  | underline {position marker moved} : underlineMarker? line = some marker → markers[position]? = some marker →
      Marker.all[level + position]? = some moved →
      Moved markers level line (List.replicate (trimEnd line).length moved.toChar)
  | plain : underlineMarker? line = none → underlineMarker? (trimEnd line) = none →
      Moved markers level line (trimEnd line)

theorem moved_normalizeLine {lines : List Text} {level : Nat} (fits : level + (hierarchy lines).length ≤ Marker.all.length)
    {line : Text} (member : line ∈ lines) :
    Moved (hierarchy lines) level line (normalizeLine (hierarchy lines) level line) := by
  cases found : underlineMarker? line with
  | none =>
    rw [normalizeLine_of_none found]
    exact .plain found (by rw [underlineMarker?_trimEnd, found])
  | some marker =>
    have among := mem_hierarchy_iff.mpr ⟨line, member, found⟩
    obtain ⟨moved, depth, normalized, _⟩ := normalizeLine_of_some fits found among
    rw [normalized]
    refine .underline found (List.getElem?_idxOf among) ?_
    rw [← depth]
    exact Marker.ofDepth?_depth moved

theorem depth_movedMarker {markers : List Marker} {level : Nat} (fits : level + markers.length ≤ Marker.all.length)
    {marker : Marker} (member : marker ∈ markers) :
    (movedMarker markers level marker).depth = level + markers.idxOf marker := by
  have position := List.idxOf_lt_length_of_mem member
  obtain ⟨moved, located⟩ := Marker.exists_ofDepth? (n := level + markers.idxOf marker) (by omega)
  rw [movedMarker, globalMarker?, idxOf?_of_mem member, Option.bind_some, located, Option.getD_some]
  exact (Marker.ofDepth?_eq_some_iff.mp located).symm

theorem injOn_movedMarker {markers : List Marker} {level : Nat} (fits : level + markers.length ≤ Marker.all.length) :
    Set.InjOn (movedMarker markers level) {marker | marker ∈ markers} := by
  intro first among second among' same
  have depths := congrArg Marker.depth same
  rw [depth_movedMarker fits among, depth_movedMarker fits among'] at depths
  exact (List.idxOf_inj among).mp (Nat.add_left_cancel depths)

theorem normalizeLine_of_moved {lines : List Text} {level other : Nat}
    (fits : level + (hierarchy lines).length ≤ Marker.all.length)
    (fits' : other + (hierarchy lines).length ≤ Marker.all.length) {line : Text} (member : line ∈ lines) :
    normalizeLine ((hierarchy lines).map (movedMarker (hierarchy lines) level)) other
      (normalizeLine (hierarchy lines) level line) = normalizeLine (hierarchy lines) other line := by
  have apart := injOn_movedMarker fits
  generalize markers : hierarchy lines = known at fits fits' apart ⊢
  have rendered := rendered_normalizeLine known level line
  cases found : underlineMarker? line with
  | none =>
    have plain := rendered.marker
    rw [found, Option.map_none] at plain
    rw [normalizeLine_of_none plain, rendered.plain found, normalizeLine_of_none found]
  | some marker =>
    have among : marker ∈ known := markers ▸ mem_hierarchy_iff.mpr ⟨line, member, found⟩
    have shown := rendered.marker
    rw [found, Option.map_some] at shown
    obtain ⟨first, depth, normalized, _⟩ := normalizeLine_of_some (by simpa using fits') shown (List.mem_map_of_mem among)
    obtain ⟨second, depth', normalized', _⟩ := normalizeLine_of_some fits' found among
    rw [idxOf_map apart among] at depth
    have same : first = second := Marker.depth_injective (depth.trans depth'.symm)
    rw [normalized, normalized', same, trimEnd_normalizeLine, normalizeLine_length]

theorem normalize_of_normalized {lines normalized : List Text} {level : Nat}
    (ok : normalize lines level = .ok normalized) (other : Nat) : normalize normalized other = normalize lines other := by
  obtain ⟨fits, rfl⟩ := normalize_eq_ok_iff.mp ok
  have rendered : List.Forall₂ (Rendered (movedMarker (hierarchy lines) level)) lines
      (lines.map (normalizeLine (hierarchy lines) level)) :=
    List.forall₂_map_right_iff.mpr (List.forall₂_same.mpr fun line _ => rendered_normalizeLine _ _ line)
  have moved := hierarchy_map_of_rendered rendered (injOn_movedMarker fits)
  simp only [normalize, moved, unfitDepth?, List.length_map]
  split
  · rfl
  · next known =>
    have fits' : other + (hierarchy lines).length ≤ Marker.all.length := by simpa using known
    rw [List.map_map]
    exact congrArg Except.ok (List.map_congr_left fun line member => normalizeLine_of_moved fits fits' member)

/-- The markers of a file are mapped onto the alphabet from a level on, in the order of their first appearance, unless
there are too few. A file that has been moved to one level is moved to any other as it would have been at first. -/
theorem normalize_onto_alphabet (lines : List Text) (level : Nat) :
    hierarchy lines = (lines.filterMap underlineMarker?).eraseDups ∧
      (∀ depth, normalize lines level = .error depth ↔ 7 < level + (hierarchy lines).length ∧ depth = max 7 level) ∧
      (level + (hierarchy lines).length ≤ 7 → ∃ normalized, normalize lines level = .ok normalized ∧
        List.Forall₂ (Moved (hierarchy lines) level) lines normalized) ∧
      ∀ normalized, normalize lines level = .ok normalized →
        ∀ other, normalize normalized other = normalize lines other := by
  refine ⟨hierarchy_eq_eraseDups lines, fun _ => normalize_eq_error_iff, fun fits => ?_, fun _ => normalize_of_normalized⟩
  refine ⟨_, normalize_eq_ok_iff.mpr ⟨fits, rfl⟩, ?_⟩
  exact List.forall₂_map_right_iff.mpr (List.forall₂_same.mpr fun line => moved_normalizeLine fits)

end DocPress.Heading
