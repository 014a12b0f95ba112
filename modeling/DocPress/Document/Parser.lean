import DocPress.Document.Block

/-!
From the lines of a document to its blocks, in one pass. A label waits for the block below it: a table or a
figure carries the label itself, and any other block is followed by it.
-/

namespace DocPress.Document
open Text Markup Heading

def labeledDirectives : List Text :=
  ["versionadded".toList, "versionchanged".toList, "deprecated".toList, "note".toList, "warning".toList,
    "important".toList, "hint".toList, "tip".toList]

structure Pending where
  anchor : Text
  blocksBefore : Nat
deriving DecidableEq, Repr

/-- A parse between two lines: the blocks so far, the lines of the paragraph that is being read, the label that
waits, the line just read, and what there is to report. -/
structure Progress where
  blocks : List Block := []
  paragraph : List Text := []
  pending : Option Pending := none
  previous : Option Text := none
  notes : List Note := []
deriving Repr

namespace Progress

def push (progress : Progress) (block : Block) : Progress :=
  { progress with blocks := progress.blocks ++ [block] }

def flush (progress : Progress) : Progress :=
  if progress.paragraph.isEmpty then progress
  else { progress.push (.paragraph progress.paragraph) with paragraph := [] }

def placeLabel (progress : Progress) : Progress :=
  match progress.pending with
  | none => progress
  | some label => { progress.push (.label label.anchor) with pending := none }

def awaitLabel (progress : Progress) (anchor : Text) : Progress :=
  let displaced := progress.pending.toList.map fun label => Note.labelDisplaced label.anchor anchor
  let placed := progress.placeLabel
  { placed with
    pending := some ⟨anchor, placed.blocks.length⟩
    notes := placed.notes ++ displaced }

def pendingAnchor (progress : Progress) : Option Text :=
  progress.pending.map Pending.anchor

/-- Whether the last block is the overline of a heading with `underline`: it stands directly above the title
and is a paragraph of its own. -/
def hasOverline (progress : Progress) (underline : Text) : Bool :=
  progress.previous == some underline && progress.blocks.getLast? == some (.paragraph [underline])

def pushHeader (progress : Progress) (title underline : Text) : Progress :=
  if progress.hasOverline underline then
    { progress with blocks := progress.blocks.dropLast ++ [.header (some underline) title underline] }
  else progress.push (.header none title underline)

def pushTable (progress : Progress) (block : TableBlock) : Progress :=
  { progress.push (.table block.lines progress.pendingAnchor) with
    pending := none
    notes := progress.notes ++ Table.parseNotes block.lines }

def pushFigure (progress : Progress) (lines : List Text) : Progress :=
  { progress.push (.figure lines progress.pendingAnchor) with pending := none }

def labeledMember? (progress : Progress) (line : Text) : Option (Text → Bool) :=
  if progress.pending.isNone then none
  else if startsWith "- ".toList line then some isListLine
  else if startsWith ".. ".toList line && labeledDirectives.any fun name => isDirective name line then some isBody
  else none

/-- Read a line of a paragraph, or an empty one. A label is placed at the first empty line after a block has
come below it. -/
def readPlain (progress : Progress) (line : Text) : Progress :=
  if isBlank line then
    let ended := progress.flush
    if ended.pending.any fun label => label.blocksBefore ≠ ended.blocks.length then ended.placeLabel else ended
  else { progress with paragraph := progress.paragraph ++ [line] }

def after (progress : Progress) (line : Option Text) : Progress :=
  { progress with previous := line }

def step (progress : Progress) (line : Text) (rest : List Text) : Progress × List Text :=
  match anchor? line with
  | some anchor => ((progress.awaitLabel anchor).after (some line), rest)
  | none =>
    match (rest.head?.filter isUnderline).filter fun _ => !isBlank line with
    | some underline =>
      (((progress.flush.pushHeader line underline).placeLabel).after (some underline), rest.drop 1)
    | none =>
      if startsWith ".. csv-table::".toList line then
        let (block, remaining) := tableBlock line rest
        ((progress.flush.pushTable block).after block.lines.getLast?, remaining)
      else if startsWith ".. figure::".toList line then
        let body := rest.takeWhile (inBlock isBody)
        ((progress.flush.pushFigure (line :: body)).after (line :: body).getLast?, rest.dropWhile (inBlock isBody))
      else
        match progress.labeledMember? line with
        | some member =>
          let block := line :: rest.takeWhile (inBlock member)
          (((progress.flush.push (.paragraph (dropEndWhile isBlank block))).placeLabel).after block.getLast?,
            rest.dropWhile (inBlock member))
        | none => ((progress.readPlain line).after (some line), rest)

theorem length_noteBlocks_le (lines : List Text) : (noteBlocks lines).2.length ≤ lines.length := by
  fun_induction noteBlocks lines with
  | case1 | case3 => exact Nat.le_refl _
  | case2 lines line after found _ _ rest ih =>
    have shorter : (lines.dropWhile isBlank).length ≤ lines.length := (List.dropWhile_suffix _).length_le
    have tail : (after.dropWhile isFilledBody).length ≤ after.length := (List.dropWhile_suffix _).length_le
    rw [found, List.length_cons] at shorter
    simp only [rest] at ih ⊢
    omega

theorem length_tableBlock_le (directive : Text) (lines : List Text) :
    (tableBlock directive lines).2.length ≤ lines.length := by
  simp only [tableBlock]
  refine Nat.le_trans (length_noteBlocks_le _) ?_
  have options : lines.dropWhile isFilledBody <:+ lines := List.dropWhile_suffix _
  split
  · exact options.length_le
  · have gap : (lines.dropWhile isFilledBody).dropWhile isBlank <:+ lines := (List.dropWhile_suffix _).trans options
    exact ((List.dropWhile_suffix _).trans gap).length_le

theorem length_step_le (progress : Progress) (line : Text) (rest : List Text) :
    (progress.step line rest).2.length ≤ rest.length := by
  unfold step
  split
  · exact Nat.le_refl _
  · split
    · simp
    · split
      · exact length_tableBlock_le line rest
      · split
        · exact (List.dropWhile_suffix _).length_le
        · split
          · exact (List.dropWhile_suffix _).length_le
          · exact Nat.le_refl _

def run (progress : Progress) : List Text → Progress
  | [] => progress
  | line :: rest =>
    let next := progress.step line rest
    run next.1 next.2
termination_by lines => lines.length
decreasing_by
  have := length_step_le progress line rest
  simp only [List.length_cons]
  omega

def finish (progress : Progress) : Progress :=
  progress.flush.placeLabel

end Progress

def read (lines : List Text) : Progress :=
  (Progress.run {} (lines.map trimEnd)).finish

def blocks (lines : List Text) : List Block :=
  (read lines).blocks

end DocPress.Document
