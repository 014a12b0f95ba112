import DocPress.Text.Basic
import Mathlib.Data.List.DropRight

namespace DocPress.Text

theorem dropEndWhile_eq_rdropWhile {α : Type} (p : α → Bool) (l : List α) : dropEndWhile p l = l.rdropWhile p := by
  induction l with
  | nil => rfl
  | cons a l ih =>
    rw [dropEndWhile, ih, List.rdropWhile, List.rdropWhile, List.reverse_cons, List.dropWhile_append]
    cases kept : l.reverse.dropWhile p with
    | nil => cases first : p a <;> simp [first]
    | cons b more =>
      obtain ⟨c, rest, reversed⟩ : ∃ c rest, (b :: more).reverse = c :: rest :=
        List.exists_cons_of_ne_nil (by simp)
      rw [reversed, List.isEmpty_cons, if_neg Bool.false_ne_true, List.reverse_append, reversed]
      rfl

theorem dropEndWhile_append {p : Char → Bool} (t rest : Text) :
    dropEndWhile p (t ++ rest) = if dropEndWhile p rest = [] then dropEndWhile p t else t ++ dropEndWhile p rest := by
  simp only [dropEndWhile_eq_rdropWhile, List.rdropWhile, List.reverse_append, List.dropWhile_append,
    List.isEmpty_iff, List.reverse_eq_nil_iff]
  split
  · rfl
  · rw [List.reverse_append, List.reverse_reverse]

theorem dropEndWhile_append_concat {p : Char → Bool} {c : Char} (other : p c = false) (s t : Text) :
    dropEndWhile p (s ++ [c] ++ t) = s ++ [c] ++ dropEndWhile p t := by
  rw [dropEndWhile_append]
  split
  · next none => simp [none, dropEndWhile_append, dropEndWhile, other]
  · rfl

theorem trimEnd_append (s t : Text) : trimEnd (s ++ t) = if trimEnd t = [] then trimEnd s else s ++ trimEnd t :=
  dropEndWhile_append s t

theorem trimEnd_prefix_self (t : Text) : trimEnd t <+: t := by
  rw [trimEnd, dropEndWhile_eq_rdropWhile]
  exact List.rdropWhile_prefix isSpace t

theorem trimEnd_eq_self_iff {t : Text} : trimEnd t = t ↔ ∀ c ∈ t.getLast?, isSpace c = false := by
  rw [trimEnd, dropEndWhile_eq_rdropWhile, List.rdropWhile_eq_self_iff]
  cases t using List.reverseRecOn with
  | nil => simp
  | append_singleton t c => simp

@[simp]
theorem trimEnd_trimEnd (t : Text) : trimEnd (trimEnd t) = trimEnd t := by
  simp only [trimEnd, dropEndWhile_eq_rdropWhile]
  exact List.rdropWhile_idempotent _ _

@[simp]
theorem trimEnd_nil : trimEnd [] = [] :=
  rfl

theorem trimEnd_eq_nil_iff {t : Text} : trimEnd t = [] ↔ isBlank t = true := by
  rw [trimEnd, dropEndWhile_eq_rdropWhile, List.rdropWhile_eq_nil_iff, isBlank, List.all_eq_true]

theorem isBlank_of_subset {s t : Text} (blank : isBlank t = true) (subset : s ⊆ t) : isBlank s = true :=
  List.all_eq_true.mpr fun c member => List.all_eq_true.mp blank c (subset member)

theorem not_mem_of_isBlank {c : Char} {t : Text} (visible : isSpace c = false) (blank : isBlank t = true) : c ∉ t := by
  intro member
  rw [List.all_eq_true.mp blank c member] at visible
  cases visible

theorem exists_blank_end (t : Text) : ∃ s, t = trimEnd t ++ s ∧ isBlank s = true := by
  refine ⟨t.rtakeWhile isSpace, ?_, ?_⟩
  · rw [trimEnd, dropEndWhile_eq_rdropWhile, List.rdropWhile_append_rtakeWhile]
  · rw [isBlank, List.all_eq_true]
    exact fun c member => List.mem_rtakeWhile_imp member

theorem trimEnd_append_of_blank {s : Text} (blank : isBlank s = true) (t : Text) : trimEnd (t ++ s) = trimEnd t := by
  rw [trimEnd_append, if_pos (trimEnd_eq_nil_iff.mpr blank)]

theorem eq_trimEnd_append_iff {s t : Text} : s = trimEnd (s ++ t) ↔ trimEnd s = s ∧ trimEnd t = [] := by
  rw [trimEnd_append]
  split
  · next none => simp [none, eq_comm]
  · next some => simp [some]

theorem append_eq_trimEnd_append_iff {s t u : Text} (some : u ≠ []) : s ++ u = trimEnd (s ++ t) ↔ trimEnd t = u := by
  rw [trimEnd_append]
  split
  · next none =>
    rw [none]
    refine iff_of_false (fun same => ?_) (Ne.symm some)
    have short := (trimEnd_prefix_self s).length_le
    rw [← same, List.length_append] at short
    exact some (List.length_eq_zero_iff.mp (by omega))
  · rw [List.append_cancel_left_eq, eq_comm]

theorem trimEnd_append_of_trimmed {s t : Text} (trimmed : trimEnd s = s) (trimmed' : trimEnd t = t) :
    trimEnd (s ++ t) = s ++ t := by
  rw [trimEnd_append, trimmed, trimmed']
  split
  · next none => rw [none, List.append_nil]
  · rfl

theorem trimEnd_of_suffix {s t : Text} (trimmed : trimEnd t = t) (suffix : s <:+ t) : trimEnd s = s := by
  rw [trimEnd_eq_self_iff] at trimmed ⊢
  obtain ⟨before, rfl⟩ := suffix
  intro c last
  exact trimmed c (by rw [Option.mem_def] at last ⊢; rw [List.getLast?_append, last]; rfl)

@[simp]
theorem isBlank_trimEnd (t : Text) : isBlank (trimEnd t) = isBlank t := by
  rw [Bool.eq_iff_iff, ← trimEnd_eq_nil_iff, ← trimEnd_eq_nil_iff, trimEnd_trimEnd]

@[simp]
theorem trim_trimEnd (t : Text) : trim (trimEnd t) = trim t := by
  obtain ⟨s, split, blank⟩ := exists_blank_end t
  change trimEnd ((trimEnd t).dropWhile isSpace) = trimEnd (t.dropWhile isSpace)
  conv_rhs => rw [split, List.dropWhile_append]
  cases visible : (trimEnd t).dropWhile isSpace with
  | nil =>
    have below : isBlank (s.dropWhile isSpace) = true := isBlank_of_subset blank (List.dropWhile_suffix _).subset
    rw [List.isEmpty_nil, if_pos rfl, trimEnd_nil, trimEnd_eq_nil_iff.mpr below]
  | cons c rest => rw [List.isEmpty_cons, if_neg Bool.false_ne_true, trimEnd_append_of_blank blank]

@[simp]
theorem isBlank_trim (t : Text) : isBlank (trim t) = isBlank t := by
  have visible : isBlank (t.dropWhile isSpace) = isBlank t := by
    conv_rhs => rw [← List.takeWhile_append_dropWhile (p := isSpace) (l := t), isBlank, List.all_append]
    rw [List.all_takeWhile, Bool.true_and, isBlank]
  exact (isBlank_trimEnd _).trans visible

theorem trim_eq_nil_iff {t : Text} : trim t = [] ↔ isBlank t = true := by
  rw [← isBlank_trim]
  constructor
  · intro none
    rw [none]
    rfl
  · intro blank
    exact (trimEnd_trimEnd _).symm.trans (trimEnd_eq_nil_iff.mpr blank)

theorem trimEnd_trim (t : Text) : trimEnd (trim t) = trim t :=
  trimEnd_trimEnd (t.dropWhile isSpace)

theorem trim_sublist (t : Text) : (trim t).Sublist t :=
  (trimEnd_prefix_self _).sublist.trans (List.dropWhile_suffix _).sublist

/-! ## Texts that end or start with a visible character -/

theorem trimEnd_append_cons {c : Char} (visible : isSpace c = false) (s t : Text) :
    trimEnd (s ++ c :: t) = s ++ c :: trimEnd t := by
  induction s with
  | nil =>
    rw [List.nil_append, List.nil_append, trimEnd, dropEndWhile, trimEnd]
    cases dropEndWhile isSpace t with
    | nil => simp [visible]
    | cons d kept => rfl
  | cons d s ih =>
    rw [List.cons_append, List.cons_append, ← ih]
    cases kept : trimEnd (s ++ c :: t) with
    | nil => simp [kept] at ih
    | cons e more =>
      rw [trimEnd] at kept
      rw [trimEnd, dropEndWhile, kept]

theorem trimEnd_append_trimmed {t : Text} (trimmed : trimEnd t = t) (some : t ≠ []) (s : Text) :
    trimEnd (s ++ t) = s ++ t := by
  rw [trimEnd_eq_self_iff] at trimmed ⊢
  rw [List.getLast?_append_of_ne_nil s some]
  exact trimmed

theorem trim_cons {c : Char} (visible : isSpace c = false) (t : Text) : trim (c :: t) = c :: trimEnd t := by
  rw [trim, stripWhile, List.dropWhile_cons_of_neg (by simp [visible])]
  exact trimEnd_append_cons visible [] t

@[simp]
theorem trim_trim (t : Text) : trim (trim t) = trim t := by
  have kept : trim t = trimEnd (t.dropWhile isSpace) := rfl
  cases visible : t.dropWhile isSpace with
  | nil => rw [kept, visible, trimEnd_nil]; rfl
  | cons c rest =>
    have first : isSpace c = false := by
      have head := List.head?_dropWhile_not isSpace t
      rw [visible] at head
      simpa using head
    have own : trimEnd (c :: rest) = c :: trimEnd rest := trimEnd_append_cons first [] rest
    rw [kept, visible, own, trim_cons first, trimEnd_trimEnd]

theorem trim_eq_trimEnd {c : Char} (visible : isSpace c = false) (t : Text) : trim (c :: t) = trimEnd (c :: t) :=
  (trim_cons visible t).trans (trimEnd_append_cons visible [] t).symm

theorem getLast?_trim_concat {c : Char} (visible : isSpace c = false) (t : Text) :
    (trim (t ++ [c])).getLast? = some c := by
  have kept : (t ++ [c]).dropWhile isSpace = t.dropWhile isSpace ++ [c] := by
    rw [List.dropWhile_append]
    split
    · next none => simp [List.isEmpty_iff.mp none, visible]
    · rfl
  rw [trim, stripWhile, kept]
  change (trimEnd (t.dropWhile isSpace ++ [c])).getLast? = some c
  rw [trimEnd_append_cons visible, trimEnd_nil, List.getLast?_concat]

theorem trim_append_of_blank {s : Text} (blank : isBlank s = true) (t : Text) : trim (s ++ t) = trim t := by
  rw [isBlank, List.all_eq_true] at blank
  rw [trim, stripWhile, List.dropWhile_append_of_pos blank]
  rfl

theorem trim_eq_self {c d : Char} (first : isSpace c = false) (last : isSpace d = false) (t : Text) :
    trim (c :: t ++ [d]) = c :: t ++ [d] := by
  rw [List.cons_append, trim_cons first, trimEnd_eq_self_iff.mpr]
  intro e ends
  rw [List.getLast?_concat] at ends
  cases ends
  exact last

end DocPress.Text
