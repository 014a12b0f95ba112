import DocPress.Proofs.Text.Search
import DocPress.Proofs.Text.Trim

/-!
# Replacing

Replacing punches a hole for each occurrence that is found (`punched`) and fills the holes with a value
(`replaceAll_eq_fill`). Where a text is cut, its holes are those of the two parts, unless an occurrence goes over the cut
(`cut_punchedFrom`). So white space at the end of a text makes a difference to replacing exactly where an occurrence
reaches into it and the value is not the same as what is looked for (`replaceAll_trimEnd_eq_iff`).
-/

namespace DocPress.Text

/-! ## Holes -/

def punchedFrom (needle : Text) : Nat → Text → List (Option Char)
  | _, [] => []
  | skip + 1, _ :: rest => punchedFrom needle skip rest
  | 0, c :: rest =>
    if startsWith needle (c :: rest) then none :: punchedFrom needle (needle.length - 1) rest
    else some c :: punchedFrom needle 0 rest

/-- A text with a hole for each occurrence of `needle`, found from the left and without overlap. The empty text occurs
before each character and at the end. -/
def punched (needle t : Text) : List (Option Char) :=
  if needle.isEmpty then none :: t.flatMap fun c => [some c, none]
  else punchedFrom needle 0 t

def fill (value : Text) (holed : List (Option Char)) : Text :=
  holed.flatMap fun place => place.elim value fun c => [c]

def occurrences (needle t : Text) : Nat :=
  (punched needle t).count none

section
variable {needle value t rest : Text} {skip : Nat}

theorem fill_append (front back : List (Option Char)) : fill value (front ++ back) = fill value front ++ fill value back :=
  List.flatMap_append

theorem fill_cons_none (holed : List (Option Char)) : fill value (none :: holed) = value ++ fill value holed :=
  List.flatMap_cons

@[simp]
theorem fill_map_some : fill value (t.map some) = t := by
  rw [fill, List.flatMap_map]
  exact List.flatMap_singleton' t

theorem mem_fill_iff {c : Char} {holed : List (Option Char)} :
    c ∈ fill value holed ↔ (none ∈ holed ∧ c ∈ value) ∨ some c ∈ holed := by
  rw [fill, List.mem_flatMap]
  constructor
  · rintro ⟨place, among, inside⟩
    cases place with
    | none => exact .inl ⟨among, inside⟩
    | some d =>
      obtain rfl := List.mem_singleton.mp inside
      exact .inr among
  · rintro (⟨hole, inside⟩ | among)
    · exact ⟨none, hole, inside⟩
    · exact ⟨some c, among, List.mem_singleton_self c⟩

theorem replaceFrom_eq_fill (needle value : Text) (skip : Nat) (t : Text) :
    replaceFrom needle value skip t = fill value (punchedFrom needle skip t) := by
  fun_induction punchedFrom needle skip t with
  | case1 => rw [replaceFrom]; rfl
  | case2 skip c rest ih => exact ih
  | case3 c rest starts ih => rw [replaceFrom, if_pos starts, ih, fill_cons_none]
  | case4 c rest apart ih => rw [replaceFrom, if_neg apart, ih]; rfl

theorem replaceAll_eq_fill (needle value t : Text) : replaceAll needle value t = fill value (punched needle t) := by
  unfold replaceAll punched
  split
  · rw [fill_cons_none, fill, List.flatMap_assoc]
    simp
  · exact replaceFrom_eq_fill needle value 0 t

theorem mem_of_mem_punchedFrom {c : Char} (member : some c ∈ punchedFrom needle skip t) : c ∈ t := by
  fun_induction punchedFrom needle skip t with
  | case1 => cases member
  | case2 skip d rest ih => exact List.mem_cons_of_mem d (ih member)
  | case3 d rest starts ih =>
    rw [List.mem_cons] at member
    exact List.mem_cons_of_mem d (ih (member.resolve_left nofun))
  | case4 d rest apart ih =>
    rcases List.mem_cons.mp member with same | member
    · cases same
      exact List.mem_cons_self
    · exact List.mem_cons_of_mem d (ih member)

theorem mem_of_mem_punched {c : Char} (member : some c ∈ punched needle t) : c ∈ t := by
  unfold punched at member
  split at member
  · simpa using member
  · exact mem_of_mem_punchedFrom member

theorem mem_replaceAll {c : Char} (member : c ∈ replaceAll needle value t) : c ∈ value ∨ c ∈ t := by
  rw [replaceAll_eq_fill] at member
  exact (mem_fill_iff.mp member).imp And.right mem_of_mem_punched

/-! ## Texts without an occurrence -/

theorem punchedFrom_of_not_occurs (free : occurs needle t = false) : punchedFrom needle 0 t = t.map some := by
  induction t with
  | nil => rfl
  | cons c t ih =>
    rw [occurs, Bool.or_eq_false_iff] at free
    rw [punchedFrom, free.1, if_neg Bool.false_ne_true, ih free.2, List.map_cons]

theorem punched_of_not_occurs (free : occurs needle t = false) : punched needle t = t.map some := by
  have filled : needle.isEmpty = false := by
    rw [Bool.eq_false_iff, ne_eq, List.isEmpty_iff]
    rintro rfl
    exact occurs_eq_false_iff.mp free (List.nil_infix)
  rw [punched, filled, if_neg Bool.false_ne_true, punchedFrom_of_not_occurs free]

theorem replaceAll_of_not_occurs (free : occurs needle t = false) : replaceAll needle value t = t := by
  rw [replaceAll_eq_fill, punched_of_not_occurs free, fill_map_some]

theorem replaceAll_of_not_mem {c : Char} (inside : c ∈ needle) (outside : c ∉ t) : replaceAll needle value t = t := by
  refine replaceAll_of_not_occurs ?_
  rw [Bool.eq_false_iff]
  exact fun found => outside (mem_of_occurs inside found)

/-! ## Cut texts -/

theorem punchedFrom_skip (needle : Text) (s rest : Text) :
    punchedFrom needle s.length (s ++ rest) = punchedFrom needle 0 rest := by
  induction s with
  | nil => rfl
  | cons c s ih => exact ih

structure Crosses (needle t rest u v after : Text) : Prop where
  whole : needle = u ++ v
  start : u <:+ t
  split : rest = v ++ after
  filled : u ≠ []
  filled' : v ≠ []

/-- The holes `whole` of a text that is cut are the holes `part` of its first part and those of `rest`, unless an occurrence
goes over the cut. -/
inductive Cut (needle t rest : Text) (part whole : List (Option Char)) : Prop
  | clear (holes : whole = part ++ punchedFrom needle 0 rest)
  | crossed (front : List (Option Char)) (u v after : Text) (crosses : Crosses needle t rest u v after)
      (before : part = front ++ u.map some) (holes : whole = front ++ none :: punchedFrom needle 0 after)

theorem Cut.longer {part whole : List (Option Char)} (cut : Cut needle t rest part whole) (c : Char) :
    Cut needle (c :: t) rest part whole := by
  cases cut with
  | clear holes => exact .clear holes
  | crossed front u v after crosses before holes =>
    exact .crossed front u v after { crosses with start := crosses.start.trans (List.suffix_cons c t) } before holes

theorem Cut.cons {part whole : List (Option Char)} (cut : Cut needle t rest part whole) (c : Char)
    (place : Option Char) : Cut needle (c :: t) rest (place :: part) (place :: whole) := by
  cases cut.longer c with
  | clear holes => exact .clear (congrArg (place :: ·) holes)
  | crossed front u v after crosses before holes =>
    exact .crossed (place :: front) u v after crosses (congrArg (place :: ·) before) (congrArg (place :: ·) holes)

theorem Cut.of_start {c : Char} (starts : ¬needle <+: c :: t) (reaches : needle <+: c :: (t ++ rest)) :
    Cut needle (c :: t) rest (some c :: punchedFrom needle 0 t)
      (none :: punchedFrom needle (needle.length - 1) (t ++ rest)) := by
  obtain ⟨after, same⟩ := reaches
  rcases List.append_eq_append_iff.mp (same.trans (List.cons_append ..).symm) with ⟨gap, inside, -⟩ | ⟨v, rfl, rfl⟩
  · exact absurd ⟨gap, inside.symm⟩ starts
  · have filled : v ≠ [] := by
      rintro rfl
      exact starts ⟨[], by simp⟩
    have free : occurs (c :: t ++ v) t = false := by
      rw [occurs_eq_false_iff]
      intro found
      have short := found.length_le
      rw [List.length_append, List.length_cons] at short
      omega
    have crosses : Crosses (c :: t ++ v) (c :: t) (v ++ after) (c :: t) v after :=
      ⟨rfl, List.suffix_refl _, rfl, List.cons_ne_nil c t, filled⟩
    refine .crossed [] (c :: t) v after crosses ?_ ?_
    · rw [punchedFrom_of_not_occurs free]
      rfl
    · rw [← List.append_assoc]
      exact congrArg (none :: ·) (punchedFrom_skip _ (t ++ v) after)

theorem cut_punchedFrom (short : skip ≤ t.length) (rest : Text) :
    Cut needle t rest (punchedFrom needle skip t) (punchedFrom needle skip (t ++ rest)) := by
  induction t generalizing skip with
  | nil =>
    obtain rfl := Nat.le_zero.mp short
    exact .clear rfl
  | cons c t ih =>
    cases skip with
    | succ skip => exact (ih (Nat.le_of_succ_le_succ short)).longer c
    | zero =>
      rw [List.cons_append, punchedFrom, punchedFrom]
      by_cases starts : needle <+: c :: t
      · have longer : needle <+: c :: (t ++ rest) := starts.trans (List.prefix_append (c :: t) rest)
        rw [if_pos (startsWith_iff.mpr starts), if_pos (startsWith_iff.mpr longer)]
        exact (ih (Nat.sub_le_of_le_add starts.length_le)).cons c none
      · rw [if_neg fun found => starts (startsWith_iff.mp found)]
        by_cases reaches : needle <+: c :: (t ++ rest)
        · rw [if_pos (startsWith_iff.mpr reaches)]
          exact .of_start starts reaches
        · rw [if_neg fun found => reaches (startsWith_iff.mp found)]
          exact (ih (Nat.zero_le _)).cons c (some c)

theorem replaceFrom_append (short : skip ≤ t.length)
    (whole : ∀ s, s <:+ t → s ≠ [] → needle <+: s ++ rest → needle <+: s) :
    replaceFrom needle value skip (t ++ rest) =
      replaceFrom needle value skip t ++ replaceFrom needle value 0 rest := by
  simp only [replaceFrom_eq_fill]
  have cut : Cut needle t rest _ _ := cut_punchedFrom short rest
  cases cut with
  | clear holes => rw [holes, fill_append]
  | crossed _ u v after crosses =>
    -- only the start of the occurrence stands before the cut
    have reaches : needle <+: u ++ rest := ⟨after, by rw [crosses.whole, crosses.split, List.append_assoc]⟩
    have inside := (whole u crosses.start crosses.filled reaches).length_le
    rw [crosses.whole, List.length_append] at inside
    exact absurd (List.length_eq_zero_iff.mp (by omega)) crosses.filled'

/-! ## White space at the end -/

theorem none_notMem_map_some : none ∉ t.map some := by
  simp

theorem occurs_of_none_mem (hole : none ∈ punchedFrom needle 0 t) : occurs needle t = true := by
  rw [← Bool.not_eq_false]
  intro free
  rw [punchedFrom_of_not_occurs free] at hole
  exact none_notMem_map_some hole

theorem punched_append_blank {gap : Text} (trimmed : trimEnd t = t) (blank : isBlank gap = true) :
    (∃ more, punched needle (t ++ gap) = punched needle t ++ more ∧ (∀ c, some c ∈ more → c ∈ gap) ∧
        (none ∈ more → trimEnd needle = [])) ∨
      ∃ front more, trimEnd needle ≠ [] ∧ trimEnd needle ≠ needle ∧
        punched needle t = front ++ (trimEnd needle).map some ∧ punched needle (t ++ gap) = front ++ none :: more ∧
        (∀ c, some c ∈ more → c ∈ gap) ∧ none ∉ more := by
  unfold punched
  split
  · next empty =>
    refine .inl ⟨gap.flatMap fun c => [some c, none], by simp, fun c member => by simpa using member, fun _ => ?_⟩
    rw [List.isEmpty_iff.mp empty, trimEnd_nil]
  · rcases cut_punchedFrom (Nat.zero_le _) gap with holes | ⟨front, u, v, after, crosses, holes, holes'⟩
    · refine .inl ⟨_, holes, fun c => mem_of_mem_punchedFrom, fun hole => ?_⟩
      rw [trimEnd_eq_nil_iff]
      exact isBlank_of_subset blank (occurs_iff.mp (occurs_of_none_mem hole)).subset
    · have behind : v ⊆ gap ∧ after ⊆ gap := by simp [crosses.split]
      have visible : trimEnd needle = u := by
        rw [crosses.whole, trimEnd_append_of_blank (isBlank_of_subset blank behind.1)]
        exact trimEnd_of_suffix trimmed crosses.start
      refine .inr ⟨front, _, visible ▸ crosses.filled, ?_, visible ▸ holes, holes', ?_, fun hole => ?_⟩
      · rw [visible, crosses.whole]
        exact fun same => crosses.filled' (List.append_right_eq_self.mp same.symm)
      · exact fun c member => behind.2 (mem_of_mem_punchedFrom member)
      · have none : isBlank needle = true :=
          isBlank_of_subset blank (List.Subset.trans (occurs_iff.mp (occurs_of_none_mem hole)).subset behind.2)
        rw [trimEnd_eq_nil_iff.mpr none] at visible
        exact crosses.filled visible.symm

theorem trimEnd_fill_eq_nil_iff {more : List (Option Char)} {gap : Text} (blank : isBlank gap = true)
    (inside : ∀ c, some c ∈ more → c ∈ gap) : trimEnd (fill value more) = [] ↔ none ∉ more ∨ trimEnd value = [] := by
  simp only [trimEnd_eq_nil_iff]
  constructor
  · intro filled
    by_cases hole : none ∈ more
    · exact .inr (isBlank_of_subset filled fun c member => mem_fill_iff.mpr (.inl ⟨hole, member⟩))
    · exact .inl hole
  · intro clear
    refine List.all_eq_true.mpr fun c member => ?_
    rcases mem_fill_iff.mp member with ⟨hole, member⟩ | among
    · exact List.all_eq_true.mp (clear.resolve_left (not_not_intro hole)) c member
    · exact List.all_eq_true.mp blank c (inside c among)

theorem replaceAll_trimEnd_eq_iff (needle value t : Text) :
    replaceAll needle value (trimEnd t) = trimEnd (replaceAll needle value t) ↔
      trimEnd (replaceAll needle value (trimEnd t)) = replaceAll needle value (trimEnd t) ∧
        (occurrences needle (trimEnd t) = occurrences needle t ∨ trimEnd value = trimEnd needle) := by
  obtain ⟨gap, split, blank⟩ := exists_blank_end t
  have trimmed := trimEnd_trimEnd t
  generalize trimEnd t = body at *
  subst split
  simp only [replaceAll_eq_fill, occurrences]
  rcases punched_append_blank trimmed blank with ⟨more, holes, inside, hole⟩ | ⟨front, more, visible, -, h⟩
  · have same : (punched needle body).count none = (punched needle body ++ more).count none ↔ none ∉ more := by
      rw [List.count_append, Nat.left_eq_add, List.count_eq_zero]
    rw [holes, fill_append, eq_trimEnd_append_iff, trimEnd_fill_eq_nil_iff blank inside, same]
    refine and_congr_right fun _ => ?_
    by_cases none : none ∈ more
    · rw [hole none]
    · simp [none]
  · obtain ⟨holes, holes', inside, whole⟩ := h
    have behind : trimEnd (fill value more) = [] := (trimEnd_fill_eq_nil_iff blank inside).mpr (.inl whole)
    have fewer : (front ++ (trimEnd needle).map some).count none ≠ (front ++ none :: more).count none := by
      rw [List.count_append, List.count_append, List.count_cons_self, List.count_eq_zero.mpr none_notMem_map_some]
      omega
    rw [holes, holes', fill_append, fill_append, fill_map_some, fill_cons_none, ← List.append_assoc,
      trimEnd_append_of_blank (trimEnd_eq_nil_iff.mp behind), append_eq_trimEnd_append_iff visible]
    have ends := trimEnd_append_trimmed (trimEnd_trimEnd needle) visible (fill value front)
    exact ⟨fun same => ⟨ends, .inr same⟩, fun kept => kept.2.resolve_left fewer⟩

theorem occurrences_trimEnd (trimmed : trimEnd needle = needle) (filled : needle ≠ []) (t : Text) :
    occurrences needle (trimEnd t) = occurrences needle t := by
  obtain ⟨gap, split, blank⟩ := exists_blank_end t
  rw [occurrences, occurrences]
  conv_rhs => rw [split]
  rcases punched_append_blank (trimEnd_trimEnd t) blank with ⟨more, holes, -, hole⟩ | ⟨_, _, _, other, _⟩
  · have whole : none ∉ more := fun member => filled (trimmed.symm.trans (hole member))
    rw [holes, List.count_append, List.count_eq_zero.mpr whole, Nat.add_zero]
  · exact absurd trimmed other

theorem replaceFrom_ne_nil (filled : value ≠ []) (some : t ≠ []) : replaceFrom needle value 0 t ≠ [] := by
  obtain ⟨c, t, rfl⟩ := List.exists_cons_of_ne_nil some
  rw [replaceFrom]
  split
  · exact List.append_ne_nil_of_left_ne_nil filled _
  · exact List.cons_ne_nil _ _

theorem trimEnd_replaceFrom (ends : trimEnd value = value) (filled : value ≠ []) (trimmed : trimEnd t = t) :
    trimEnd (replaceFrom needle value skip t) = replaceFrom needle value skip t := by
  fun_induction replaceFrom needle value skip t with
  | case1 => rfl
  | case2 skip c rest ih => exact ih (trimEnd_of_suffix trimmed (List.suffix_cons c rest))
  | case3 c rest starts ih =>
    exact trimEnd_append_of_trimmed ends (ih (trimEnd_of_suffix trimmed (List.suffix_cons c rest)))
  | case4 c rest apart ih =>
    cases rest with
    | nil => exact trimmed
    | cons d rest =>
      exact trimEnd_append_trimmed (ih (trimEnd_of_suffix trimmed (List.suffix_cons c _)))
        (replaceFrom_ne_nil filled (List.cons_ne_nil d rest)) [c]

theorem trimEnd_replaceAll (ends : trimEnd value = value) (filled : value ≠ []) (trimmed : trimEnd t = t) :
    trimEnd (replaceAll needle value t) = replaceAll needle value t := by
  unfold replaceAll
  split
  · refine trimEnd_append_of_trimmed ends ?_
    clear trimmed
    induction t with
    | nil => rfl
    | cons c t ih =>
      have own : trimEnd (c :: value) = c :: value := trimEnd_append_trimmed ends filled [c]
      rw [List.flatMap_cons]
      exact trimEnd_append_of_trimmed own ih
  · exact trimEnd_replaceFrom ends filled trimmed

end

end DocPress.Text
