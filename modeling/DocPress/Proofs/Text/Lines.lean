import DocPress.Proofs.Text.Trim

namespace DocPress.Text

def terminated (ls : List Text) : Text :=
  ls.flatMap (· ++ ['\n'])

theorem not_mem_of_mem_lines {t line : Text} (member : line ∈ lines t) : '\n' ∉ line := by
  induction t using lines.induct generalizing line with
  | case1 => simp [lines] at member
  | case2 rest ih | case3 rest ih =>
    rw [lines, List.mem_cons] at member
    rcases member with rfl | member
    · exact List.not_mem_nil
    · exact ih member
  | case4 c rest feed ending none ih =>
    rw [lines, none] at member
    · have : line = [c] := by simpa using member
      subst this
      simpa using Ne.symm feed
    · exact feed
    · exact ending
  | case5 c rest feed ending first more found ih =>
    rw [lines, found] at member
    · rcases List.mem_cons.mp member with rfl | member
      · have below : '\n' ∉ first := ih (by rw [found]; exact List.mem_cons_self)
        simpa [below] using Ne.symm feed
      · exact ih (by rw [found]; exact List.mem_cons_of_mem _ member)
    · exact feed
    · exact ending

theorem lines_append_feed {line : Text} (rest : Text) (single : '\n' ∉ line) (ending : line.getLast? ≠ some '\r') :
    lines (line ++ '\n' :: rest) = line :: lines rest := by
  induction line with
  | nil => rfl
  | cons c line ih =>
    have below : lines (line ++ '\n' :: rest) = line :: lines rest := by
      apply ih
      · exact fun member => single (List.mem_cons_of_mem _ member)
      · cases line with
        | nil => simp
        | cons d line => simpa using ending
    rw [List.cons_append, lines, below]
    · rintro rfl
      exact single List.mem_cons_self
    · rintro more rfl followed
      cases line with
      | nil => exact ending rfl
      | cons d line =>
        obtain ⟨rfl, _⟩ := List.cons.inj followed
        exact single (by simp)

theorem lines_terminated {ls : List Text} (trimmed : ∀ line ∈ ls, trimEnd line = line)
    (single : ∀ line ∈ ls, '\n' ∉ line) : lines (terminated ls) = ls := by
  induction ls with
  | nil => rfl
  | cons line ls ih =>
    have ending : line.getLast? ≠ some '\r' := by
      intro last
      have := trimEnd_eq_self_iff.mp (trimmed line List.mem_cons_self) '\r' last
      exact absurd this (by decide)
    rw [terminated, List.flatMap_cons, List.append_assoc, List.singleton_append,
      lines_append_feed _ (single line List.mem_cons_self) ending]
    exact congrArg (line :: ·) (ih (fun l member => trimmed l (List.mem_cons_of_mem _ member))
      fun l member => single l (List.mem_cons_of_mem _ member))

/-! ## Lines that may end in a carriage return -/

def withoutReturn (line : Text) : Text :=
  (beforeTail? ['\r'] line).getD line

theorem withoutReturn_concat (line : Text) : withoutReturn (line ++ ['\r']) = line := by
  rw [withoutReturn, beforeTail?_eq_some_iff.mpr rfl, Option.getD_some]

theorem withoutReturn_of_getLast? {line : Text} (ending : line.getLast? ≠ some '\r') : withoutReturn line = line := by
  unfold withoutReturn
  cases found : beforeTail? ['\r'] line with
  | none => rfl
  | some front =>
    rw [beforeTail?_eq_some_iff.mp found, List.getLast?_concat] at ending
    exact absurd rfl ending

theorem trim_withoutReturn (line : Text) : trim (withoutReturn line) = trim line := by
  by_cases ending : line.getLast? = some '\r'
  · obtain ⟨front, rfl⟩ := List.getLast?_eq_some_iff.mp ending
    rw [withoutReturn_concat, ← trim_trimEnd (front ++ _), trimEnd_append_of_blank (by decide), trim_trimEnd]
  · rw [withoutReturn_of_getLast? ending]

theorem isBlank_withoutReturn (line : Text) : isBlank (withoutReturn line) = isBlank line := by
  rw [← isBlank_trim, trim_withoutReturn, isBlank_trim]

theorem lines_append_return {line : Text} (rest : Text) (single : '\n' ∉ line) :
    lines (line ++ '\r' :: '\n' :: rest) = line :: lines rest := by
  induction line with
  | nil => rfl
  | cons c line ih =>
    rw [List.mem_cons, not_or] at single
    rw [List.cons_append, lines, ih single.2]
    · exact fun feed => single.1 feed.symm
    · rintro more rfl followed
      cases line with
      | nil => cases followed
      | cons d line =>
        obtain ⟨rfl, _⟩ := List.cons.inj followed
        exact single.2 List.mem_cons_self

theorem lines_terminated_of_single {ls : List Text} (single : ∀ line ∈ ls, '\n' ∉ line) :
    lines (terminated ls) = ls.map withoutReturn := by
  induction ls with
  | nil => rfl
  | cons line ls ih =>
    obtain ⟨first, below⟩ := List.forall_mem_cons.mp single
    have below : lines (ls.flatMap (· ++ ['\n'])) = ls.map withoutReturn := ih below
    rw [terminated, List.flatMap_cons, List.append_assoc, List.singleton_append, List.map_cons, ← below]
    by_cases ending : line.getLast? = some '\r'
    · obtain ⟨front, rfl⟩ := List.getLast?_eq_some_iff.mp ending
      rw [withoutReturn_concat, List.append_assoc, List.singleton_append]
      exact lines_append_return _ fun member => first (List.mem_append_left _ member)
    · rw [withoutReturn_of_getLast? ending, lines_append_feed _ first ending]

end DocPress.Text
