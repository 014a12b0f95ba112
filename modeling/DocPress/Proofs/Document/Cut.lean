import DocPress.Proofs.Document.Positions

namespace DocPress.Document
open Text Markup Heading

section
variable {label anchor : Text} (found : anchor? label = some anchor) (rest below : List Text)
include found

theorem takeWhile_cut {p : Text → Bool} (none : ∀ line, p line = true → anchor? line = none) :
    (rest ++ label :: below).takeWhile p = rest.takeWhile p := by
  have stops : p label = false := by
    rw [Bool.eq_false_iff]
    intro holds
    rw [none label holds] at found
    cases found
  induction rest with
  | nil => rw [List.nil_append, List.takeWhile_cons_of_neg (by simp [stops]), List.takeWhile_nil]
  | cons line rest ih =>
    rw [List.cons_append, List.takeWhile_cons, List.takeWhile_cons, ih]

theorem dropWhile_cut {p : Text → Bool} (none : ∀ line, p line = true → anchor? line = none) :
    (rest ++ label :: below).dropWhile p = rest.dropWhile p ++ label :: below := by
  have whole : (rest ++ label :: below).takeWhile p ++ (rest ++ label :: below).dropWhile p = rest ++ label :: below :=
    List.takeWhile_append_dropWhile
  rw [takeWhile_cut found rest below none] at whole
  refine List.append_cancel_left (whole.trans ?_)
  rw [← List.append_assoc, List.takeWhile_append_dropWhile]

theorem noteBlocks_cut : noteBlocks (rest ++ label :: below) =
    ((noteBlocks rest).1, (noteBlocks rest).2 ++ label :: below) := by
  have other : ¬isFootnoteStart label = true :=
    Bool.eq_false_iff.mp (eq_false_of_anchor? found anchor?_of_isFootnoteStart)
  have apart := dropWhile_cut found rest below (p := isBlank) fun _ => anchor?_of_isBlank
  fun_induction noteBlocks rest with
  | case1 lines empty =>
    rw [empty, List.nil_append] at apart
    rw [noteBlocks_of_other apart other]
  | case2 lines line after same start note more ih =>
    rw [same, List.cons_append] at apart
    rw [noteBlocks_of_start apart start, takeWhile_cut found _ _ fun _ => anchor?_of_isBlank,
      takeWhile_cut found _ _ fun _ => anchor?_of_isFilledBody, dropWhile_cut found _ _ fun _ => anchor?_of_isFilledBody,
      ih (dropWhile_cut found _ below (p := isBlank) fun _ => anchor?_of_isBlank)]
  | case3 lines line after same start =>
    rw [same, List.cons_append] at apart
    rw [noteBlocks_of_other apart start]

theorem tableBlock_cut (directive : Text) : tableBlock directive (rest ++ label :: below) =
    ((tableBlock directive rest).1, (tableBlock directive rest).2 ++ label :: below) := by
  simp only [tableBlock, dropWhile_cut found _ _ fun _ => anchor?_of_isFilledBody,
    takeWhile_cut found _ _ fun _ => anchor?_of_isFilledBody, dropWhile_cut found _ _ fun _ => anchor?_of_isBlank,
    takeWhile_cut found _ _ fun _ => anchor?_of_isBlank]
  split <;> rw [noteBlocks_cut found]

theorem nextMove_cut (waiting : Bool) (line : Text) :
    nextMove waiting line (rest ++ label :: below) = nextMove waiting line rest := by
  have head : (rest ++ label :: below).head?.filter isUnderline = rest.head?.filter isUnderline := by
    cases rest with
    | nil =>
      have plain : isUnderline label = false := eq_false_of_anchor? found anchor?_of_isUnderline
      simp [plain]
    | cons first more => rfl
  rw [nextMove, nextMove, head, tableBlock_cut found,
    takeWhile_cut found _ _ (p := inBlock isBody) fun _ => anchor?_of_inBlock fun _ => anchor?_of_isBody]
  cases captured : capturedMember? waiting line with
  | none => rfl
  | some member =>
    simp only
    rw [takeWhile_cut found _ _ (p := inBlock member) fun _ => anchor?_of_inBlock (capturedMember?_anchor captured)]

theorem belowMove_cut (waiting : Bool) (line : Text) :
    belowMove waiting line (rest ++ label :: below) = belowMove waiting line rest ++ label :: below := by
  have whole := congrArg List.length (lines_nextMove waiting line rest)
  rw [List.length_append, List.length_cons] at whole
  rw [belowMove, nextMove_cut found, List.drop_append_of_le_length (by omega), belowMove]

end

namespace Reader

def run (reader : Reader) : List Text → Reader
  | [] => reader
  | line :: rest =>
    (reader.next (nextMove reader.waiting.isSome line rest)).run (belowMove reader.waiting.isSome line rest)
termination_by lines => lines.length
decreasing_by
  have := length_belowMove_le reader.waiting.isSome line rest
  simp only [List.length_cons]
  omega

def ended (reader : Reader) : List Text → List Source
  | [] => []
  | line :: rest =>
    reader.emitted (nextMove reader.waiting.isSome line rest) ++
      (reader.next (nextMove reader.waiting.isSome line rest)).ended (belowMove reader.waiting.isSome line rest)
termination_by lines => lines.length
decreasing_by
  have := length_belowMove_le reader.waiting.isSome line rest
  simp only [List.length_cons]
  omega

theorem sources_cut (reader : Reader) (before : List Text) {label anchor : Text} (found : Markup.anchor? label = some anchor)
    (below : List Text) : reader.sources (before ++ label :: below) =
      reader.ended before ++ (reader.run before).sources (label :: below) := by
  induction reader, before using run.induct with
  | case1 reader => rw [List.nil_append, ended, run, List.nil_append]
  | case2 reader line rest ih =>
    rw [List.cons_append, sources, nextMove_cut found, belowMove_cut found, ih, ended, run, List.append_assoc]

theorem follows_run {reader : Reader} {progress : Progress} (follows : Follows reader progress) (lines : List Text) :
    Follows (reader.run lines) (progress.run lines) := by
  induction progress, lines using Progress.run.induct generalizing reader with
  | case1 progress =>
    rw [run, Progress.run]
    exact follows
  | case2 progress line rest next =>
    rename_i ih
    have step := step_eq progress line rest
    rw [show progress.pending.isSome = reader.waiting.isSome by rw [follows.pending, Option.isSome_map]] at step
    rw [show next = _ from step] at ih
    rw [run, Progress.run, step]
    exact ih (follows.take (moveAt_nextMove _ line rest))

structure Sound (reader : Reader) : Prop where
  opened : reader.paragraph ≠ [] → reader.opened < reader.line
  waiting : ∀ k, reader.labelLine? = some k → k < reader.line

theorem sound_start : Sound {} where
  opened filled := absurd rfl filled
  waiting := by rintro _ ⟨⟩

theorem lines_ne_nil (waiting : Bool) (line : Text) (rest : List Text) : (nextMove waiting line rest).lines ≠ [] := by
  have made := moveAt_nextMove waiting line rest
  generalize nextMove waiting line rest = move at made ⊢
  cases made <;> simp [Move.lines, TableBlock.lines]

theorem Sound.next {reader : Reader} (sound : reader.Sound) {move : Move} (some : move.lines ≠ []) :
    (reader.next move).Sound := by
  have below : reader.line < (reader.next move).line := by
    rw [line_next]
    exact Nat.lt_add_of_pos_right (List.length_pos_of_ne_nil some)
  constructor
  · intro filled
    rcases opened_next filled with ⟨before, same⟩ | here
    · rw [same]
      exact (sound.opened before).trans below
    · rw [here]
      exact below
  · intro k waits
    rcases labelLine?_next waits with before | rfl
    · exact (sound.waiting k before).trans below
    · exact below

theorem before_emitted {reader : Reader} (sound : reader.Sound) {move : Move} {source : Source}
    (member : source ∈ reader.emitted move) :
    source.first ≤ reader.line ∧ ∀ k, source.label = some k → k < reader.line := by
  rcases mem_emitted member with ⟨filled, first, none⟩ | ⟨first, label⟩ | member
  · exact ⟨first ▸ (sound.opened filled).le, fun k some => by cases none.symm.trans some⟩
  · refine ⟨first.le, fun k some => ?_⟩
    rcases label with none | carried
    · cases none.symm.trans some
    · exact sound.waiting k (carried.symm.trans some)
  · obtain ⟨label, waits, rfl⟩ := mem_placed member
    have above : label.line < reader.line := sound.waiting _ (by rw [labelLine?, waits]; rfl)
    refine ⟨above.le, fun k some => ?_⟩
    cases some
    exact above

theorem length_move (waiting : Bool) (line : Text) (rest : List Text) :
    (nextMove waiting line rest).lines.length + (belowMove waiting line rest).length = rest.length + 1 := by
  rw [← List.length_append, lines_nextMove, List.length_cons]

theorem line_run (reader : Reader) (lines : List Text) : (reader.run lines).line = reader.line + lines.length := by
  induction reader, lines using run.induct with
  | case1 reader => rw [run, List.length_nil, Nat.add_zero]
  | case2 reader line rest ih =>
    have whole := length_move reader.waiting.isSome line rest
    rw [run, ih, line_next, List.length_cons]
    omega

theorem Sound.run {reader : Reader} (sound : reader.Sound) (lines : List Text) : (reader.run lines).Sound := by
  induction reader, lines using run.induct with
  | case1 reader =>
    rw [Reader.run]
    exact sound
  | case2 reader line rest ih =>
    rw [Reader.run]
    exact ih (sound.next (lines_ne_nil _ _ _))

theorem before_ended {reader : Reader} (sound : reader.Sound) {lines : List Text} {source : Source}
    (member : source ∈ reader.ended lines) : source.first < reader.line + lines.length ∧
      ∀ k, source.label = some k → k < reader.line + lines.length := by
  induction reader, lines using ended.induct with
  | case1 reader =>
    rw [ended] at member
    cases member
  | case2 reader line rest ih =>
    rw [ended] at member
    rcases List.mem_append.mp member with member | member
    · obtain ⟨first, label⟩ := before_emitted sound member
      exact ⟨by simp only [List.length_cons]; omega, fun k some => (label k some).trans (by simp)⟩
    · have whole := length_move reader.waiting.isSome line rest
      have later := ih (sound.next (lines_ne_nil _ _ _)) member
      rw [line_next] at later
      rw [List.length_cons, ← whole, ← Nat.add_assoc]
      exact later

end Reader
end DocPress.Document
