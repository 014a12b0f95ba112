import DocPress.Proofs.Heading.Underline
import DocPress.Proofs.Keyed.Latest
import Mathlib.Data.List.Infix

namespace DocPress.Heading
open Text

theorem hierarchy_eq_eraseDups (lines : List Text) :
    hierarchy lines = (lines.filterMap underlineMarker?).eraseDups := by
  induction lines with
  | nil => rfl
  | cons line lines ih =>
    rw [hierarchy]
    cases found : underlineMarker? line with
    | none => rw [List.filterMap_cons_none found, ih]
    | some first =>
      rw [List.filterMap_cons_some found, List.eraseDups_cons, Keyed.eraseDups_filter, ← ih]
      refine congrArg (first :: ·) (List.filter_congr fun marker _ => ?_)
      rw [Bool.eq_iff_iff]
      simp

theorem mem_hierarchy_iff {lines : List Text} {marker : Marker} :
    marker ∈ hierarchy lines ↔ ∃ line ∈ lines, underlineMarker? line = some marker := by
  rw [hierarchy_eq_eraseDups, List.mem_eraseDups, List.mem_filterMap]

theorem idxOf?_of_mem {markers : List Marker} {marker : Marker} (member : marker ∈ markers) :
    markers.idxOf? marker = some (markers.idxOf marker) :=
  List.findIdx?_eq_some_iff_findIdx_eq.mpr ⟨List.idxOf_lt_length_of_mem member, rfl⟩

theorem normalize_eq_ok_iff {lines normalized : List Text} {level : Nat} :
    normalize lines level = .ok normalized ↔
      level + (hierarchy lines).length ≤ Marker.all.length ∧
        normalized = lines.map (normalizeLine (hierarchy lines) level) := by
  simp only [normalize, unfitDepth?]
  by_cases fits : level + (hierarchy lines).length ≤ Marker.all.length
  · simp [if_neg (Nat.not_lt.mpr fits), fits, eq_comm]
  · simp [if_pos (Nat.not_le.mp fits), fits]

theorem normalize_eq_error_iff {lines : List Text} {level depth : Nat} : normalize lines level = .error depth ↔
    Marker.all.length < level + (hierarchy lines).length ∧ depth = max Marker.all.length level := by
  simp only [normalize, unfitDepth?]
  by_cases fits : level + (hierarchy lines).length ≤ Marker.all.length
  · simp [Nat.not_lt.mpr fits]
  · simp [Nat.not_le.mp fits, eq_comm]

theorem normalizeLine_of_none {line : Text} (plain : underlineMarker? line = none) (markers : List Marker)
    (level : Nat) : normalizeLine markers level line = trimEnd line := by
  simp [normalizeLine, plain]

theorem normalizeLine_of_some {markers : List Marker} {level : Nat} {line : Text} {marker : Marker}
    (fits : level + markers.length ≤ Marker.all.length) (found : underlineMarker? line = some marker)
    (member : marker ∈ markers) :
    ∃ moved : Marker, moved.depth = level + markers.idxOf marker ∧
      normalizeLine markers level line = List.replicate (trimEnd line).length moved.toChar ∧
      underlineMarker? (normalizeLine markers level line) = some moved := by
  have position := List.idxOf_lt_length_of_mem member
  obtain ⟨moved, located⟩ := Marker.exists_ofDepth? (n := level + markers.idxOf marker) (by omega)
  have normalized : normalizeLine markers level line = List.replicate (trimEnd line).length moved.toChar := by
    simp [normalizeLine, found, globalMarker?, idxOf?_of_mem member, located]
  refine ⟨moved, (Marker.ofDepth?_eq_some_iff.mp located).symm, normalized, ?_⟩
  obtain ⟨n, long, visible⟩ := underlineMarker?_eq_some_iff.mp found
  rw [normalized, visible, List.length_replicate]
  exact underlineMarker?_replicate moved long

theorem underlineMarker?_normalizeLine_eq_none_iff {lines : List Text} {level : Nat} {line : Text}
    (fits : level + (hierarchy lines).length ≤ Marker.all.length) (member : line ∈ lines) :
    underlineMarker? (normalizeLine (hierarchy lines) level line) = none ↔ underlineMarker? line = none := by
  cases found : underlineMarker? line with
  | none => rw [normalizeLine_of_none found, underlineMarker?_trimEnd, found]
  | some marker =>
    obtain ⟨moved, _, _, underline⟩ := normalizeLine_of_some fits found (mem_hierarchy_iff.mpr ⟨line, member, found⟩)
    simp [underline]

theorem trimEnd_normalizeLine (markers : List Marker) (level : Nat) (line : Text) :
    trimEnd (normalizeLine markers level line) = normalizeLine markers level line := by
  rw [normalizeLine]
  cases (underlineMarker? (trimEnd line)).bind fun marker => globalMarker? markers marker level with
  | none => exact trimEnd_trimEnd line
  | some marker => exact trimEnd_replicate _ marker

theorem normalizeLine_length (markers : List Marker) (level : Nat) (line : Text) :
    (normalizeLine markers level line).length = (trimEnd line).length := by
  rw [normalizeLine]
  cases (underlineMarker? (trimEnd line)).bind fun marker => globalMarker? markers marker level with
  | none => rfl
  | some marker => exact List.length_replicate

theorem isFilled_normalizeLine (markers : List Marker) (level : Nat) (line : Text) :
    isFilled (normalizeLine markers level line) = isFilled line := by
  have empty : normalizeLine markers level line = [] ↔ trimEnd line = [] := by
    rw [← List.length_eq_zero_iff, normalizeLine_length, List.length_eq_zero_iff]
  rw [isFilled, isFilled, Bool.not_inj_iff, Bool.eq_iff_iff, ← trimEnd_eq_nil_iff, ← trimEnd_eq_nil_iff,
    trimEnd_normalizeLine, empty]

/-! ## Levels that are not skipped -/

def depths (lines : List Text) : List Nat :=
  (lines.filterMap underlineMarker?).map Marker.depth

/-- Each depth is at most one deeper than all before it, where the depths below `n` have been met already. -/
def Unskipped : Nat → List Nat → Prop
  | _, [] => True
  | n, d :: ds => d ≤ n ∧ Unskipped (max n (d + 1)) ds

def reached (n : Nat) (ds : List Nat) : Nat :=
  ds.foldl (fun n d => max n (d + 1)) n

@[simp]
theorem depths_append (first second : List Text) : depths (first ++ second) = depths first ++ depths second := by
  simp [depths]

theorem depths_cons_of_none {line : Text} (plain : underlineMarker? line = none) (lines : List Text) :
    depths (line :: lines) = depths lines := by
  simp [depths, plain]

theorem depths_cons_of_some {line : Text} {marker : Marker} (found : underlineMarker? line = some marker)
    (lines : List Text) : depths (line :: lines) = marker.depth :: depths lines := by
  simp [depths, found]

theorem le_reached (n : Nat) (ds : List Nat) : n ≤ reached n ds := by
  induction ds generalizing n with
  | nil => exact Nat.le_refl n
  | cons d ds ih => exact Nat.le_trans (Nat.le_max_left _ _) (ih _)

theorem unskipped_append {n : Nat} {first second : List Nat} :
    Unskipped n (first ++ second) ↔ Unskipped n first ∧ Unskipped (reached n first) second := by
  induction first generalizing n with
  | nil => simp [Unskipped, reached]
  | cons d first ih =>
    rw [List.cons_append, Unskipped, Unskipped, ih, and_assoc]
    rfl

theorem Unskipped.mono {n m : Nat} {ds : List Nat} (unskipped : Unskipped n ds) (le : n ≤ m) : Unskipped m ds := by
  induction ds generalizing n m with
  | nil => trivial
  | cons d ds ih => exact ⟨Nat.le_trans unskipped.1 le, ih unskipped.2 (by omega)⟩

theorem unskipped_positions (level : Nat) (known : List Marker) (lines : List Text) :
    Unskipped (level + known.length) ((lines.filterMap underlineMarker?).map fun marker =>
      level + (known ++ (hierarchy lines).filter (· ∉ known)).idxOf marker) := by
  -- a marker that is met is one of `known`, a new one comes directly behind them
  induction lines generalizing known with
  | nil => trivial
  | cons line lines ih =>
    rw [hierarchy]
    cases found : underlineMarker? line with
    | none => simpa [found] using ih known
    | some first =>
      rw [List.filterMap_cons_some found, List.map_cons]
      by_cases member : first ∈ known
      · have later : (first :: (hierarchy lines).filter (· ≠ first)).filter (· ∉ known) =
            (hierarchy lines).filter (· ∉ known) := by
          rw [List.filter_cons_of_neg (by simpa using member), List.filter_filter]
          apply List.filter_congr
          intro marker _
          by_cases same : marker = first
          · simp [same, member]
          · simp [same]
        have position : (known ++ (hierarchy lines).filter (· ∉ known)).idxOf first < known.length := by
          rw [List.idxOf_append_of_mem member]
          exact List.idxOf_lt_length_of_mem member
        rw [later]
        refine ⟨by omega, ?_⟩
        rw [Nat.max_eq_left (by omega)]
        exact ih known
      · have later : known ++ (first :: (hierarchy lines).filter (· ≠ first)).filter (· ∉ known) =
            (known ++ [first]) ++ (hierarchy lines).filter (· ∉ known ++ [first]) := by
          rw [List.filter_cons_of_pos (by simpa using member), List.filter_filter, List.append_assoc,
            List.singleton_append]
          congr 2
          apply List.filter_congr
          intro marker _
          simp [Bool.and_comm]
        have position : ((known ++ [first]) ++ (hierarchy lines).filter (· ∉ known ++ [first])).idxOf first =
            known.length := by
          rw [List.idxOf_append_of_mem (by simp), List.idxOf_append_of_notMem member]
          simp
        rw [later]
        refine ⟨by omega, ?_⟩
        rw [position, Nat.max_eq_right (by omega)]
        simpa [Nat.add_assoc] using ih (known ++ [first])

theorem depths_normalize {lines : List Text} {level : Nat}
    (fits : level + (hierarchy lines).length ≤ Marker.all.length) :
    depths (lines.map (normalizeLine (hierarchy lines) level)) =
      (lines.filterMap underlineMarker?).map fun marker => level + (hierarchy lines).idxOf marker := by
  rw [depths, List.filterMap_map, List.map_filterMap, List.map_filterMap]
  apply List.filterMap_congr
  intro line member
  cases found : underlineMarker? line with
  | none => simp [normalizeLine_of_none found, found]
  | some marker =>
    obtain ⟨moved, depth, _, underline⟩ :=
      normalizeLine_of_some fits found (mem_hierarchy_iff.mpr ⟨line, member, found⟩)
    simp [underline, depth]

theorem depths_normalize_congr {lines others : List Text}
    (same : others.filterMap underlineMarker? = lines.filterMap underlineMarker?) (level : Nat) :
    (normalize others level).map depths = (normalize lines level).map depths := by
  have markers : hierarchy others = hierarchy lines := by
    rw [hierarchy_eq_eraseDups, same, ← hierarchy_eq_eraseDups]
  by_cases fits : level + (hierarchy lines).length ≤ Marker.all.length
  · have fits' : level + (hierarchy others).length ≤ Marker.all.length := by rwa [markers]
    rw [normalize_eq_ok_iff.mpr ⟨fits, rfl⟩, normalize_eq_ok_iff.mpr ⟨fits', rfl⟩, Except.map, Except.map,
      depths_normalize fits, depths_normalize fits', same, markers]
  · have long := Nat.not_le.mp fits
    rw [normalize_eq_error_iff.mpr ⟨long, rfl⟩, normalize_eq_error_iff.mpr ⟨by rwa [markers], rfl⟩]

theorem unskipped_normalize {lines normalized : List Text} {level : Nat}
    (ok : normalize lines level = .ok normalized) : Unskipped level (depths normalized) := by
  obtain ⟨fits, rfl⟩ := normalize_eq_ok_iff.mp ok
  rw [depths_normalize fits]
  simpa using unskipped_positions level [] lines

theorem hierarchy_filter_prefix {n : Nat} {lines : List Text} (unskipped : Unskipped n (depths lines)) :
    (hierarchy lines).filter (n ≤ ·.depth) <+: Marker.all.drop n := by
  induction lines generalizing n with
  | nil => exact List.nil_prefix
  | cons line lines ih =>
    rw [hierarchy]
    cases found : underlineMarker? line with
    | none =>
      rw [depths_cons_of_none found] at unskipped
      exact ih unskipped
    | some first =>
      rw [depths_cons_of_some found] at unskipped
      obtain ⟨le, unskipped⟩ := unskipped
      rcases Nat.lt_or_eq_of_le le with known | rfl
      · have later : (first :: (hierarchy lines).filter (· ≠ first)).filter (n ≤ ·.depth) =
            (hierarchy lines).filter (n ≤ ·.depth) := by
          rw [List.filter_cons_of_neg (by simpa using known), List.filter_filter]
          apply List.filter_congr
          intro marker _
          by_cases same : marker = first
          · simp [same, known]
          · simp [same]
        rw [Nat.max_eq_left (by omega)] at unskipped
        rw [later]
        exact ih unskipped
      · have later : (first :: (hierarchy lines).filter (· ≠ first)).filter (first.depth ≤ ·.depth) =
            first :: (hierarchy lines).filter (first.depth + 1 ≤ ·.depth) := by
          rw [List.filter_cons_of_pos (by simp), List.filter_filter]
          congr 1
          apply List.filter_congr
          intro marker _
          have apart : marker.depth = first.depth ↔ marker = first := Marker.depth_injective.eq_iff
          simp only [← Bool.decide_and, decide_eq_decide, ne_eq, ← apart]
          omega
        rw [Nat.max_eq_right (by omega)] at unskipped
        have head : Marker.all[first.depth]? = some first := Marker.ofDepth?_depth first
        rw [later, List.drop_eq_getElem?_toList_append, head]
        exact (List.prefix_cons_inj first).mpr (ih unskipped)

theorem hierarchy_prefix_all {lines : List Text} (unskipped : Unskipped 0 (depths lines)) :
    hierarchy lines <+: Marker.all := by
  simpa using hierarchy_filter_prefix unskipped

theorem normalize_of_prefix {lines : List Text} (ordered : hierarchy lines <+: Marker.all)
    (trimmed : ∀ line ∈ lines, trimEnd line = line) : normalize lines 0 = .ok lines := by
  have fits : 0 + (hierarchy lines).length ≤ Marker.all.length := by simpa using ordered.length_le
  have same : ∀ line ∈ lines, normalizeLine (hierarchy lines) 0 line = line := by
    intro line member
    cases found : underlineMarker? line with
    | none => rw [normalizeLine_of_none found, trimmed line member]
    | some marker =>
      have among := mem_hierarchy_iff.mpr ⟨line, member, found⟩
      obtain ⟨moved, depth, normalized, _⟩ := normalizeLine_of_some fits found among
      have position : (hierarchy lines).idxOf marker = marker.depth := by
        obtain ⟨later, all⟩ := ordered
        have start : (hierarchy lines ++ later).idxOf marker = (hierarchy lines).idxOf marker :=
          List.idxOf_append_of_mem among
        rw [← start, all]
        cases marker <;> rfl
      rw [position, Nat.zero_add] at depth
      rw [normalized, Marker.depth_injective depth, trimmed line member]
      exact (eq_replicate_of_underline (trimmed line member) found).symm
  refine normalize_eq_ok_iff.mpr ⟨fits, ?_⟩
  rw [List.map_congr_left same, List.map_id']

/-! ## Lines without underlines -/

theorem depths_eq_nil {lines : List Text} (plain : ∀ line ∈ lines, underlineMarker? line = none) :
    depths lines = [] := by
  rw [depths, List.filterMap_eq_nil_iff.mpr plain, List.map_nil]

theorem depths_dropWhile {p : Text → Bool} {lines : List Text}
    (plain : ∀ line ∈ lines.takeWhile p, underlineMarker? line = none) : depths (lines.dropWhile p) = depths lines := by
  conv_rhs => rw [← List.takeWhile_append_dropWhile (p := p) (l := lines)]
  rw [depths_append, depths_eq_nil plain, List.nil_append]

theorem depths_drop_dropWhile (lines : List Text) :
    depths ((lines.dropWhile isFilled).drop 1) = depths (lines.dropWhile isFilled) := by
  cases below : lines.dropWhile isFilled with
  | nil => rfl
  | cons line rest =>
    have blank : isFilled line = false := by
      have := List.head_dropWhile_not isFilled (l := lines) (by simp [below])
      simpa [below] using this
    have plain : underlineMarker? line = none := underlineMarker?_eq_none_of_blank (by simpa [isFilled] using blank)
    rw [List.drop_one, List.tail_cons, depths_cons_of_none plain]

end DocPress.Heading
