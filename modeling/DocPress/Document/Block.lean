import DocPress.Document.Table

namespace DocPress.Document
open Text Markup

inductive Block where
  | header (overline : Option Text) (title underline : Text)
  | label (anchor : Text)
  | paragraph (lines : List Text)
  | table (lines : List Text) (anchor : Option Text)
  | figure (lines : List Text) (anchor : Option Text)
deriving DecidableEq, Repr

def indentedBy (width : Nat) (line : Text) : Bool :=
  occurs (List.replicate width ' ') (indentation line)

def isBody (line : Text) : Bool :=
  indentedBy 3 line

def isListLine (line : Text) : Bool :=
  startsWith "- ".toList (line.dropWhile fun c => c == ' ' || c == '\t') || indentedBy 2 line

def inBlock (member : Text → Bool) (line : Text) : Bool :=
  line.isEmpty || member line

def isFilledBody (line : Text) : Bool :=
  !isBlank line && isBody line

structure NoteBlock where
  gap : List Text
  definition : Text
  continuation : List Text
deriving DecidableEq, Repr

def NoteBlock.lines (note : NoteBlock) : List Text :=
  note.gap ++ note.definition :: note.continuation

/-- The lines of a table: its directive, the options, the rows with the blank lines before them, the footnotes. -/
structure TableBlock where
  directive : Text
  options : List Text
  gap : List Text
  rows : List Text
  footnotes : List NoteBlock
deriving DecidableEq, Repr

def TableBlock.lines (block : TableBlock) : List Text :=
  block.directive :: (block.options ++ block.gap ++ block.rows ++ block.footnotes.flatMap NoteBlock.lines)

/-- The footnote definitions at the start of `lines`, and the lines after them. Blank lines after the last
definition are left. -/
def noteBlocks (lines : List Text) : List NoteBlock × List Text :=
  match _found : lines.dropWhile isBlank with
  | [] => ([], lines)
  | line :: after =>
    if isFootnoteStart line then
      let note : NoteBlock := ⟨lines.takeWhile isBlank, line, after.takeWhile isFilledBody⟩
      let rest := noteBlocks (after.dropWhile isFilledBody)
      (note :: rest.1, rest.2)
    else ([], lines)
termination_by lines.length
decreasing_by
  have shorter : (lines.dropWhile isBlank).length ≤ lines.length := (List.dropWhile_suffix _).length_le
  have rest : (after.dropWhile isFilledBody).length ≤ after.length := (List.dropWhile_suffix _).length_le
  rw [_found, List.length_cons] at shorter
  omega

def tableBlock (directive : Text) (lines : List Text) : TableBlock × List Text :=
  let options := lines.takeWhile isFilledBody
  let afterOptions := lines.dropWhile isFilledBody
  let below := afterOptions.dropWhile isBlank
  let rows := below.takeWhile isFilledBody
  let gap := if rows.isEmpty then [] else afterOptions.takeWhile isBlank
  let notes := noteBlocks (if rows.isEmpty then afterOptions else below.dropWhile isFilledBody)
  (⟨directive, options, gap, rows, notes.1⟩, notes.2)

end DocPress.Document
