import DocPress.Markup
import DocPress.Note

namespace DocPress.Document
open Text Markup

def fieldOf (raw : Text) : Text :=
  stripWhile (· == '"') (trim raw)

def fieldsFrom (current : Text) (quoted : Bool) : Text → List Text
  | [] => if current.isEmpty || quoted then [] else [fieldOf current]
  | c :: rest =>
    if c = '"' then fieldsFrom (current ++ [c]) (!quoted) rest
    else if c = ',' && !quoted then fieldOf current :: fieldsFrom [] false rest
    else fieldsFrom (current ++ [c]) quoted rest

def fields (row : Text) : List Text :=
  fieldsFrom [] false row

structure Footnote where
  tag : Text
  text : Text
deriving DecidableEq, Repr

structure Table where
  title : Option Text := none
  widths : Option Text := none
  header : Option Text := none
  rows : List (List Text) := []
  footnotes : List Footnote := []
  anchor : Option Text := none
deriving DecidableEq, Repr

namespace Table

structure Sections where
  directive : Option Text
  options : List Text
  rows : List Text
  notes : List Text
deriving DecidableEq, Repr

/-- Part the lines of a table. One blank line ends the options, and the next one the rows. -/
def sections (lines : List Text) : Sections :=
  let body := lines.drop 1
  let afterOptions := (body.dropWhile isFilled).drop 1
  { directive := lines.head?
    options := body.takeWhile isFilled
    rows := afterOptions.takeWhile isFilled
    notes := afterOptions.dropWhile isFilled }

inductive NoteLine where
  | definition (footnote : Footnote)
  | stray (line : Text)
deriving DecidableEq, Repr

def continuesNote (line : Text) : Bool :=
  isFilled line && (footnote? line).isNone

def footnoteText (text : Text) (continuation : List Text) : Text :=
  let parts := continuation.map trim
  joinWith [' '] (if text.isEmpty then parts else text :: parts)

def noteLines : List Text → List NoteLine
  | [] => []
  | line :: rest =>
    if isBlank line then noteLines rest
    else
      match footnote? line with
      | none => .stray line :: noteLines rest
      | some (tag, text) =>
        .definition ⟨tag, footnoteText text (rest.takeWhile continuesNote)⟩ ::
          noteLines (rest.dropWhile continuesNote)
termination_by lines => lines.length
decreasing_by
  all_goals simp only [List.length_cons]
  · omega
  · omega
  · have : (rest.dropWhile continuesNote).length ≤ rest.length := (List.dropWhile_suffix _).length_le
    omega

def NoteLine.footnote? : NoteLine → Option Footnote
  | .definition footnote => some footnote
  | .stray _ => none

def define (footnote : Footnote) : List Footnote → List Footnote
  | [] => [footnote]
  | known :: rest => if known.tag = footnote.tag then footnote :: rest else known :: define footnote rest

def footnotesOf (lines : List NoteLine) : List Footnote :=
  (lines.filterMap NoteLine.footnote?).foldl (fun known footnote => define footnote known) []

def parse (lines : List Text) (anchor : Option Text) : Table :=
  let parts := sections lines
  { title := (parts.directive.bind (directiveArgument? "csv-table".toList)).map trim
    widths := optionValue? "widths".toList parts.options
    header := optionValue? "header".toList parts.options
    rows := parts.rows.map fun line => fields (trim line)
    footnotes := footnotesOf (noteLines parts.notes)
    anchor := anchor }

def optionNote? (line : Text) : Option Note :=
  match option? line with
  | none => none
  | some (key, _) => if key = "widths".toList || key = "header".toList then none else some (.tableOptionIgnored key)

def NoteLine.note? : NoteLine → Option Note
  | .definition _ => none
  | .stray line => some (.tableLineDropped (trim line))

def parseNotes (lines : List Text) : List Note :=
  let parts := sections lines
  parts.options.filterMap optionNote? ++ (noteLines parts.notes).filterMap NoteLine.note?

def columnCount (table : Table) : Nat :=
  (table.rows.map List.length).foldl max 0

def footnotePosition? (table : Table) (tag : Text) : Option Nat :=
  (table.footnotes.findIdx? fun footnote => footnote.tag = tag).map (· + 1)

/-- The numbers of the `widths` option, or its value where that is no list of numbers below 2^32. -/
def columnWidths (table : Table) : Option (Except Text (List Nat)) :=
  table.widths.map fun raw =>
    match (splitAt ',' raw).mapM fun width => natBelow? (twoTo 32) (trim width) with
    | some widths => .ok widths
    | none => .error raw

def headerTitles (table : Table) : Option (List Text) :=
  table.header.map fields

end Table

end DocPress.Document
