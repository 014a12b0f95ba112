import DocPress.Proofs.Document.Moves

/-!
# Where blocks come from

`sources` reads a document like `blocks`, and gives each block with the line it starts at and the line of the label
that it is or carries (`blocks_eq_map_sources`). A `Reader` holds what the blocks still to come depend on, so that what
is read from some line on is one function of the reader there and of the lines below.
-/

namespace DocPress.Document
open Text Markup Heading

/-- A block, the line it starts at, and the line of the label that it is or carries. -/
structure Source where
  block : Block
  first : Nat
  label : Option Nat := none
deriving DecidableEq, Repr

structure Waiting where
  anchor : Text
  line : Nat
deriving DecidableEq, Repr

/-- A parse before a line: the paragraph that is being read and the line it starts at, the label that waits, and the
line just read. -/
structure Reader where
  line : Nat := 0
  paragraph : List Text := []
  opened : Nat := 0
  waiting : Option Waiting := none
  previous : Option Text := none
deriving DecidableEq, Repr

def labelSource (anchor : Text) (line : Nat) : Source :=
  ⟨.label anchor, line, some line⟩

namespace Reader

def flushed (reader : Reader) : List Source :=
  if reader.paragraph.isEmpty then [] else [⟨.paragraph reader.paragraph, reader.opened, none⟩]

def placed (reader : Reader) : List Source :=
  reader.waiting.toList.map fun label => labelSource label.anchor label.line

def anchor? (reader : Reader) : Option Text :=
  reader.waiting.map Waiting.anchor

def labelLine? (reader : Reader) : Option Nat :=
  reader.waiting.map Waiting.line

def Overlined (reader : Reader) (underline : Text) : Prop :=
  reader.paragraph = [underline] ∧ reader.previous = some underline

instance (reader : Reader) (underline : Text) : Decidable (reader.Overlined underline) :=
  inferInstanceAs (Decidable (_ ∧ _))

def emitted (reader : Reader) : Move → List Source
  | .label .. => reader.placed
  | .heading title underline =>
    (if reader.Overlined underline then [⟨.header (some underline) title underline, reader.opened, none⟩]
    else reader.flushed ++ [⟨.header none title underline, reader.line, none⟩]) ++ reader.placed
  | .table block => reader.flushed ++ [⟨.table block.lines reader.anchor?, reader.line, reader.labelLine?⟩]
  | .figure lines => reader.flushed ++ [⟨.figure lines reader.anchor?, reader.line, reader.labelLine?⟩]
  | .captured lines =>
    reader.flushed ++ ⟨.paragraph (dropEndWhile isBlank lines), reader.line, none⟩ :: reader.placed
  | .blank _ => if reader.paragraph.isEmpty then [] else reader.flushed ++ reader.placed
  | .text _ => []

def next (reader : Reader) (move : Move) : Reader :=
  let below : Reader := { line := reader.line + move.lines.length, previous := move.lines.getLast? }
  match move with
  | .label _ anchor =>
    { below with
      paragraph := reader.paragraph
      opened := reader.opened
      waiting := some ⟨anchor, reader.line⟩ }
  | .heading .. | .table _ | .figure _ | .captured _ => below
  | .blank _ => if reader.paragraph.isEmpty then { below with waiting := reader.waiting } else below
  | .text line =>
    { below with
      paragraph := reader.paragraph ++ [line]
      opened := if reader.paragraph.isEmpty then reader.line else reader.opened
      waiting := reader.waiting }

def sources (reader : Reader) : List Text → List Source
  | [] => reader.flushed ++ reader.placed
  | line :: rest =>
    let move := nextMove reader.waiting.isSome line rest
    reader.emitted move ++ (reader.next move).sources (belowMove reader.waiting.isSome line rest)
termination_by lines => lines.length
decreasing_by
  have := length_belowMove_le reader.waiting.isSome line rest
  simp only [List.length_cons]
  omega

end Reader

def sources (lines : List Text) : List Source :=
  Reader.sources {} (lines.map trimEnd)

/-! ## The sources of a document are its blocks -/

namespace Progress
variable (progress : Progress)

@[simp]
theorem blocks_flush : progress.flush.blocks =
    progress.blocks ++ if progress.paragraph.isEmpty then [] else [.paragraph progress.paragraph] := by
  rw [flush]
  split
  · rw [List.append_nil]
  · rfl

@[simp]
theorem paragraph_flush : progress.flush.paragraph = [] := by
  rw [flush]
  split
  · next empty => exact List.isEmpty_iff.mp empty
  · rfl

@[simp]
theorem pending_flush : progress.flush.pending = progress.pending := by
  rw [flush]
  split <;> rfl

@[simp]
theorem pendingAnchor_flush : progress.flush.pendingAnchor = progress.pendingAnchor := by
  rw [pendingAnchor, pending_flush, pendingAnchor]

@[simp]
theorem pending_pushHeader (title underline : Text) :
    (progress.pushHeader title underline).pending = progress.pending := by
  rw [pushHeader]
  split <;> rfl

@[simp]
theorem paragraph_pushHeader (title underline : Text) :
    (progress.pushHeader title underline).paragraph = progress.paragraph := by
  rw [pushHeader]
  split <;> rfl

@[simp]
theorem blocks_placeLabel : progress.placeLabel.blocks =
    progress.blocks ++ progress.pending.toList.map fun label => .label label.anchor := by
  rw [placeLabel]
  split
  · next none => simp [none]
  · next label some => simp [some, push]

@[simp]
theorem pending_placeLabel : progress.placeLabel.pending = none := by
  rw [placeLabel]
  split
  · next none => exact none
  · rfl

@[simp]
theorem paragraph_placeLabel : progress.placeLabel.paragraph = progress.paragraph := by
  rw [placeLabel]
  split <;> rfl

end Progress

/-- A reader that is where a parse is. No overline stands among the blocks of the parse: where a heading could still
take one, it is in the paragraph that is being read. -/
structure Follows (reader : Reader) (progress : Progress) : Prop where
  paragraph : progress.paragraph = reader.paragraph
  pending : progress.pending = reader.waiting.map fun label => ⟨label.anchor, progress.blocks.length⟩
  previous : progress.previous = reader.previous
  overline : progress.paragraph = [] → ∀ underline, isUnderline underline = true →
    progress.hasOverline underline = false

variable {reader : Reader} {progress : Progress}

theorem map_flushed (reader : Reader) : reader.flushed.map Source.block =
    if reader.paragraph.isEmpty then [] else [.paragraph reader.paragraph] := by
  rw [Reader.flushed]
  split <;> rfl

theorem map_placed (reader : Reader) :
    reader.placed.map Source.block = reader.waiting.toList.map fun label => .label label.anchor := by
  simp [Reader.placed, Function.comp_def, labelSource]

theorem Follows.overlined_iff (follows : Follows reader progress) {underline : Text}
    (underlines : isUnderline underline = true) :
    progress.flush.hasOverline underline = true ↔ reader.Overlined underline := by
  rw [Reader.Overlined, ← follows.paragraph, ← follows.previous]
  cases paragraph : progress.paragraph with
  | nil =>
    have none := follows.overline paragraph underline underlines
    simp [Progress.flush, paragraph, none]
  | cons first more => simp [Progress.flush, Progress.hasOverline, Progress.push, paragraph, and_comm]

theorem Follows.blocks_flush (follows : Follows reader progress) :
    progress.flush.blocks = progress.blocks ++ reader.flushed.map Source.block := by
  rw [progress.blocks_flush, map_flushed, follows.paragraph]

theorem Follows.labels (follows : Follows reader progress) :
    (progress.pending.toList.map fun label => Block.label label.anchor) = reader.placed.map Source.block := by
  rw [map_placed, follows.pending]
  cases reader.waiting <;> rfl

theorem Follows.pendingAnchor (follows : Follows reader progress) : progress.pendingAnchor = reader.anchor? := by
  rw [Progress.pendingAnchor, follows.pending, Option.map_map]
  rfl

theorem Follows.blocks_pushHeader (follows : Follows reader progress) {underline : Text}
    (underlines : isUnderline underline = true) (title : Text) :
    (progress.flush.pushHeader title underline).blocks = progress.blocks ++
      if reader.Overlined underline then [.header (some underline) title underline]
      else reader.flushed.map Source.block ++ [.header none title underline] := by
  have overlined := follows.overlined_iff underlines
  have flushed := follows.blocks_flush
  rw [Progress.pushHeader]
  by_cases overline : reader.Overlined underline
  · have paragraph : reader.flushed = [⟨.paragraph [underline], reader.opened, none⟩] := by
      rw [Reader.flushed, overline.1]
      rfl
    rw [if_pos (overlined.mpr overline), if_pos overline, flushed, paragraph]
    simp
  · rw [if_neg (mt overlined.mp overline), if_neg overline, Progress.push, flushed, List.append_assoc]

theorem Follows.readPlain_blank (follows : Follows reader progress) {line : Text} (blank : isBlank line = true) :
    progress.readPlain line = if reader.paragraph.isEmpty then progress else progress.flush.placeLabel := by
  rw [← follows.paragraph, Progress.readPlain, if_pos blank]
  simp only [Progress.pending_flush, follows.pending, Progress.blocks_flush]
  cases empty : progress.paragraph.isEmpty with
  | true =>
    have closed : progress.flush = progress := by rw [Progress.flush, if_pos empty]
    cases reader.waiting <;> simp [closed]
  | false =>
    cases waiting : reader.waiting with
    | none => simp [Progress.placeLabel, follows.pending, waiting]
    | some label => simp

theorem Follows.blocks_take (follows : Follows reader progress) {line : Text} {rest : List Text} {move : Move}
    (made : MoveAt reader.waiting.isSome line rest move) :
    (progress.take move).blocks = progress.blocks ++ (reader.emitted move).map Source.block := by
  have labels := follows.labels
  have anchor := follows.pendingAnchor
  have flushed := follows.blocks_flush
  cases made with
  | label found => simp only [Progress.take, Progress.after, Progress.awaitLabel, Progress.blocks_placeLabel, labels,
      Reader.emitted]
  | @heading underline plain filled head underlines =>
    simp only [Progress.take, Progress.after, Progress.blocks_placeLabel, follows.blocks_pushHeader underlines,
      Progress.pending_pushHeader, Progress.pending_flush, labels, Reader.emitted]
    split <;> simp
  | table =>
    simp only [Progress.take, Progress.after, Progress.pushTable, Progress.push, Progress.pendingAnchor_flush, flushed,
      anchor, Reader.emitted, List.map_append, List.map_cons, List.map_nil, List.append_assoc]
  | figure =>
    simp only [Progress.take, Progress.after, Progress.pushFigure, Progress.push, Progress.pendingAnchor_flush, flushed,
      anchor, Reader.emitted, List.map_append, List.map_cons, List.map_nil, List.append_assoc]
  | captured =>
    simp only [Progress.take, Progress.after, Progress.blocks_placeLabel, Progress.push, Progress.pending_flush, labels,
      flushed, Reader.emitted, List.map_append, List.map_cons, List.append_assoc, List.singleton_append]
  | blank blank =>
    simp only [Progress.take, Progress.after, follows.readPlain_blank blank, Reader.emitted]
    split
    · simp
    · simp only [Progress.blocks_placeLabel, Progress.pending_flush, labels, flushed, List.map_append, List.append_assoc]
  | text plain filled =>
    simp [Progress.take, Progress.after, Progress.readPlain, filled, Reader.emitted]

theorem hasOverline_of_previous {line underline : Text} (last : progress.previous = some line)
    (plain : isUnderline line = false) (underlines : isUnderline underline = true) :
    progress.hasOverline underline = false := by
  have apart : line ≠ underline := by
    rintro rfl
    rw [plain] at underlines
    cases underlines
  simp [Progress.hasOverline, last, apart]

theorem hasOverline_of_blocks {earlier : List Block} {block : Block} (blocks : progress.blocks = earlier ++ [block])
    (other : ∀ lines, block ≠ .paragraph lines) (underline : Text) : progress.hasOverline underline = false := by
  simp [Progress.hasOverline, blocks, other]

theorem Follows.overline_take (follows : Follows reader progress) {line : Text} {rest : List Text} {move : Move}
    (made : MoveAt reader.waiting.isSome line rest move) (closed : (progress.take move).paragraph = [])
    {underline : Text} (underlines : isUnderline underline = true) :
    (progress.take move).hasOverline underline = false := by
  have blocks := follows.blocks_take made
  cases made with
  | label found =>
    exact hasOverline_of_previous rfl (eq_false_of_anchor? found anchor?_of_isUnderline) underlines
  | blank blank =>
    exact hasOverline_of_previous rfl (isUnderline_of_isBlank blank) underlines
  | text plain filled => simp [Progress.take, Progress.after, Progress.readPlain, filled] at closed
  | table | figure =>
    rw [Reader.emitted, List.map_append, ← List.append_assoc] at blocks
    exact hasOverline_of_blocks blocks (by rintro _ ⟨⟩) underline
  | captured plain found =>
    obtain ⟨label, waiting⟩ := Option.isSome_iff_exists.mp (capturedMember?_waiting found)
    rw [Reader.emitted, Reader.placed, waiting, List.append_cons, List.map_append, ← List.append_assoc] at blocks
    exact hasOverline_of_blocks blocks (by rintro _ ⟨⟩) underline
  | heading plain filled head underlines =>
    rw [Reader.emitted, List.map_append, Reader.placed] at blocks
    cases waiting : reader.waiting with
    | some label =>
      rw [waiting, ← List.append_assoc] at blocks
      exact hasOverline_of_blocks blocks (by rintro _ ⟨⟩) underline
    | none =>
      rw [waiting, Option.toList_none, List.map_nil, List.map_nil, List.append_nil] at blocks
      split at blocks
      · exact hasOverline_of_blocks blocks (by rintro _ ⟨⟩) underline
      · rw [List.map_append, ← List.append_assoc] at blocks
        exact hasOverline_of_blocks blocks (by rintro _ ⟨⟩) underline

theorem Follows.take (follows : Follows reader progress) {line : Text} {rest : List Text} {move : Move}
    (made : MoveAt reader.waiting.isSome line rest move) : Follows (reader.next move) (progress.take move) where
  paragraph := by
    cases made with
    | label => simp [Progress.take, Reader.next, Progress.after, Progress.awaitLabel, follows.paragraph]
    | heading | table | figure | captured =>
      simp [Progress.take, Reader.next, Progress.after, Progress.pushTable, Progress.pushFigure, Progress.push]
    | blank blank =>
      simp only [Progress.take, Reader.next, Progress.after, follows.readPlain_blank blank]
      split
      · next empty => rw [follows.paragraph, List.isEmpty_iff.mp empty]
      · simp
    | text plain filled => simp [Progress.take, Reader.next, Progress.after, Progress.readPlain, filled, follows.paragraph]
  pending := by
    cases made with
    | label => simp [Progress.take, Reader.next, Progress.after, Progress.awaitLabel]
    | heading | table | figure | captured =>
      simp [Progress.take, Reader.next, Progress.after, Progress.pushTable, Progress.pushFigure]
    | blank blank =>
      simp only [Progress.take, Reader.next, Progress.after, follows.readPlain_blank blank]
      split
      · exact follows.pending
      · simp
    | text plain filled => simp [Progress.take, Reader.next, Progress.after, Progress.readPlain, filled, follows.pending]
  previous := by
    cases made with
    | blank =>
      simp only [Progress.take, Reader.next]
      split <;> rfl
    | label | heading | table | figure | captured | text => rfl
  overline closed _ underlines := follows.overline_take made closed underlines

theorem Follows.run (follows : Follows reader progress) (lines : List Text) :
    (progress.run lines).finish.blocks = progress.blocks ++ (reader.sources lines).map Source.block := by
  induction progress, lines using Progress.run.induct generalizing reader with
  | case1 progress =>
    simp only [Progress.run, Progress.finish, Progress.blocks_placeLabel, Progress.pending_flush, follows.labels,
      follows.blocks_flush, Reader.sources, List.map_append, List.append_assoc]
  | case2 progress line rest next =>
    rename_i ih
    have made := moveAt_nextMove reader.waiting.isSome line rest
    have step := step_eq progress line rest
    rw [show progress.pending.isSome = reader.waiting.isSome by rw [follows.pending, Option.isSome_map]] at step
    rw [show next = _ from step] at ih
    rw [Progress.run, step, ih (follows.take made), follows.blocks_take made, Reader.sources, List.map_append,
      List.append_assoc]

theorem blocks_eq_map_sources (lines : List Text) : blocks lines = (sources lines).map Source.block := by
  have follows : Follows {} {} := ⟨rfl, rfl, rfl, fun _ _ _ => rfl⟩
  exact follows.run (lines.map trimEnd)

end DocPress.Document
