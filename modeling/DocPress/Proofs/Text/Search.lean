import DocPress.Text.Basic

namespace DocPress.Text

theorem afterLead?_append (lead rest : Text) : afterLead? lead (lead ++ rest) = some rest :=
  afterLead?_eq_some_iff.mpr rfl

theorem afterLead?_eq_none {lead start : Text} (differs : (lead.zip start).any (fun pair => pair.1 != pair.2) = true)
    (rest : Text) : afterLead? lead (start ++ rest) = none := by
  induction lead generalizing start with
  | nil => simp at differs
  | cons c lead ih =>
    cases start with
    | nil => simp at differs
    | cons d start =>
      rw [List.cons_append, afterLead?]
      split
      · next same => exact ih (by simpa [same] using differs)
      · rfl

theorem beforeTail?_append (rest tail : Text) : beforeTail? tail (rest ++ tail) = some rest :=
  beforeTail?_eq_some_iff.mpr rfl

theorem cut?_of_not_mem {c : Char} {before : Text} (none : c ∉ before) (after : Text) :
    cut? [c] (before ++ c :: after) = some (before, after) := by
  induction before with
  | nil => simp [cut?, afterLead?]
  | cons d before ih =>
    rw [List.mem_cons, not_or] at none
    rw [List.cons_append, cut?, afterLead?, if_neg none.1, ih none.2]
    rfl

theorem splitAt_ne_nil (separator : Char) (t : Text) : splitAt separator t ≠ [] := by
  cases t with
  | nil => exact List.cons_ne_nil _ _
  | cons c t =>
    rw [splitAt]
    split
    · exact List.cons_ne_nil _ _
    · split <;> exact List.cons_ne_nil _ _

theorem startsWith_iff {lead t : Text} : startsWith lead t = true ↔ lead <+: t := by
  rw [startsWith, Option.isSome_iff_exists]
  exact exists_congr fun rest => afterLead?_eq_some_iff.trans eq_comm

theorem mem_of_occurs {c : Char} {needle t : Text} (inside : c ∈ needle) (found : occurs needle t = true) : c ∈ t := by
  induction t with
  | nil =>
    rw [occurs, List.isEmpty_iff] at found
    rw [found] at inside
    cases inside
  | cons d t ih =>
    rw [occurs, Bool.or_eq_true] at found
    rcases found with here | later
    · exact (startsWith_iff.mp here).subset inside
    · exact List.mem_cons_of_mem d (ih later)

theorem occurs_iff {needle t : Text} : occurs needle t = true ↔ needle <:+: t := by
  induction t with
  | nil => rw [occurs, List.isEmpty_iff, List.infix_nil]
  | cons c t ih => rw [occurs, Bool.or_eq_true, startsWith_iff, ih, List.infix_cons_iff]

theorem occurs_eq_false_iff {needle t : Text} : occurs needle t = false ↔ ¬ needle <:+: t := by
  rw [Bool.eq_false_iff, ne_eq, occurs_iff]

theorem occurs_of_cut?_eq_none {needle t : Text} (none : cut? needle t = none) : occurs needle t = false := by
  induction t with
  | nil =>
    rw [cut?, Option.map_eq_none_iff] at none
    cases needle with
    | nil => cases none
    | cons c needle => rfl
  | cons c t ih =>
    rw [cut?] at none
    split at none
    · cases none
    · next missing =>
      rw [occurs, startsWith, missing, Option.isSome_none, Bool.false_or]
      exact ih (Option.map_eq_none_iff.mp none)

theorem occurs_before_cut? {needle t before after : Text} (filled : needle ≠ [])
    (found : cut? needle t = some (before, after)) : occurs needle before = false := by
  induction t generalizing before with
  | nil =>
    obtain ⟨rest, lead, -⟩ := Option.map_eq_some_iff.mp found
    exact absurd (List.append_eq_nil_iff.mp (afterLead?_eq_some_iff.mp lead).symm).1 filled
  | cons c t ih =>
    rw [cut?] at found
    split at found
    · cases found
      rw [occurs, Bool.eq_false_iff, ne_eq, List.isEmpty_iff]
      exact filled
    · next missing =>
      obtain ⟨⟨front, back⟩, below, equal⟩ := Option.map_eq_some_iff.mp found
      obtain ⟨rfl, rfl⟩ := Prod.mk.inj equal
      rw [occurs, ih below, Bool.or_false, Bool.eq_false_iff, ne_eq, startsWith_iff]
      -- an occurrence at the start of `before` would be one at the start of the text
      intro starts
      have longer : needle <+: c :: t := by
        rw [cut?_eq_some below, List.append_assoc]
        exact starts.trans (List.prefix_append (c :: front) _)
      obtain ⟨rest, same⟩ := longer
      rw [← same, afterLead?_append] at missing
      cases missing

theorem not_mem_of_not_occurs {c : Char} {t : Text} (free : occurs [c] t = false) : c ∉ t := by
  intro member
  rw [occurs_eq_false_iff] at free
  obtain ⟨front, back, rfl⟩ := List.append_of_mem member
  exact free ⟨front, back, by simp⟩

/-- Two characters that are not the same and stand nowhere in a text: if they stand directly behind it, they stand elsewhere
only behind that. -/
theorem append_pair_cases {c d : Char} (apart : c ≠ d) {before after front back : Text}
    (free : occurs [c, d] before = false) (split : before ++ c :: d :: after = front ++ c :: d :: back) :
    (front = before ∧ back = after) ∨ ∃ gap, front = before ++ c :: d :: gap ∧ after = gap ++ c :: d :: back := by
  rcases List.append_eq_append_iff.mp split with ⟨gap, rfl, same⟩ | ⟨gap, rfl, same⟩
  · rcases gap with _ | ⟨e, _ | ⟨f, gap⟩⟩
    · simp only [List.nil_append, List.cons.injEq, true_and] at same
      exact .inl ⟨List.append_nil before, same.symm⟩
    · simp only [List.nil_append, List.cons_append, List.cons.injEq] at same
      exact absurd same.2.1.symm apart
    · simp only [List.cons_append, List.cons.injEq] at same
      obtain ⟨rfl, rfl, same⟩ := same
      exact .inr ⟨gap, rfl, same⟩
  · rcases gap with _ | ⟨e, _ | ⟨f, gap⟩⟩
    · simp only [List.nil_append, List.cons.injEq, true_and] at same
      exact .inl ⟨(List.append_nil front).symm, same⟩
    · simp only [List.nil_append, List.cons_append, List.cons.injEq] at same
      exact absurd same.2.1.symm apart
    · simp only [List.cons_append, List.cons.injEq] at same
      obtain ⟨rfl, rfl, -⟩ := same
      rw [occurs_eq_false_iff] at free
      exact absurd ⟨front, gap, by simp⟩ free

theorem append_pair_behind {c d : Char} {before after front back : Text} (free : occurs [c, d] before = false)
    (ends : before.getLast? ≠ some c) (split : before ++ after = front ++ c :: d :: back) :
    ∃ gap, front = before ++ gap ∧ after = gap ++ c :: d :: back := by
  rcases List.append_eq_append_iff.mp split with ⟨gap, rfl, same⟩ | ⟨gap, rfl, same⟩
  · exact ⟨gap, rfl, same⟩
  · rcases gap with _ | ⟨e, _ | ⟨f, gap⟩⟩
    · exact ⟨[], by simp, same.symm⟩
    · simp only [List.nil_append, List.cons_append, List.cons.injEq] at same
      rw [same.1, List.getLast?_concat] at ends
      exact absurd rfl ends
    · simp only [List.cons_append, List.cons.injEq] at same
      obtain ⟨rfl, rfl, -⟩ := same
      rw [occurs_eq_false_iff] at free
      exact absurd ⟨front, gap, by simp⟩ free

theorem append_pairs_cases {c d e f : Char} (apart : c ≠ e) (behind : d ≠ e) (before : f ≠ c) {t after front back : Text}
    (split : t ++ c :: d :: after = front ++ e :: f :: back) :
    (∃ gap, t = front ++ e :: f :: gap ∧ back = gap ++ c :: d :: after) ∨
      ∃ gap, front = t ++ c :: d :: gap ∧ after = gap ++ e :: f :: back := by
  rcases List.append_eq_append_iff.mp split with ⟨gap, rfl, same⟩ | ⟨gap, rfl, same⟩
  · rcases gap with _ | ⟨g, _ | ⟨h, gap⟩⟩
    · simp only [List.nil_append, List.cons.injEq] at same
      exact absurd same.1 apart
    · simp only [List.nil_append, List.cons_append, List.cons.injEq] at same
      exact absurd same.2.1 behind
    · simp only [List.cons_append, List.cons.injEq] at same
      obtain ⟨rfl, rfl, same⟩ := same
      exact .inr ⟨gap, rfl, same⟩
  · rcases gap with _ | ⟨g, _ | ⟨h, gap⟩⟩
    · simp only [List.nil_append, List.cons.injEq] at same
      exact absurd same.1.symm apart
    · simp only [List.nil_append, List.cons_append, List.cons.injEq] at same
      exact absurd same.2.1 before
    · simp only [List.cons_append, List.cons.injEq] at same
      obtain ⟨rfl, rfl, same⟩ := same
      exact .inl ⟨gap, rfl, same⟩

theorem not_occurs_append {c d : Char} {before t : Text} (free : occurs [c, d] before = false) (outside : d ∉ t) :
    occurs [c, d] (before ++ t) = false := by
  rw [occurs_eq_false_iff] at free ⊢
  rintro ⟨front, back, split⟩
  rcases List.append_eq_append_iff.mp split with ⟨gap, rfl, -⟩ | ⟨gap, same, rfl⟩
  · exact free ⟨front, gap, rfl⟩
  · rcases List.eq_nil_or_concat gap with rfl | ⟨gap, last, rfl⟩
    · exact free ⟨front, [], by simpa using same⟩
    · have ends : d = last := by simpa using congrArg List.getLast? same
      exact outside (by simp [ends])

/-! ## Numerals -/

theorem digitsFrom?_eq {t : Text} (digits : ∀ c ∈ t, c.isDigit = true) (value : Nat) :
    digitsFrom? value t = some (Nat.ofDigitChars 10 t value) := by
  induction t generalizing value with
  | nil => rfl
  | cons c t ih =>
    obtain ⟨first, rest⟩ := List.forall_mem_cons.mp digits
    rw [digitsFrom?, digit?, if_pos first, Option.bind_some, ih rest, Nat.ofDigitChars_cons]

theorem isDigit_of_mem_ofNat {n : Nat} {c : Char} (member : c ∈ ofNat n) : c.isDigit = true :=
  Nat.isDigit_of_mem_toDigits (by decide) (by decide) member

theorem not_mem_ofNat {c : Char} (plain : c.isDigit = false) (n : Nat) : c ∉ ofNat n := by
  intro member
  rw [isDigit_of_mem_ofNat member] at plain
  cases plain

theorem digitsFrom?_ofNat (n : Nat) : digitsFrom? 0 (ofNat n) = some n := by
  rw [digitsFrom?_eq fun _ => isDigit_of_mem_ofNat, ofNat, Nat.ofDigitChars_ten_toDigits]

end DocPress.Text
