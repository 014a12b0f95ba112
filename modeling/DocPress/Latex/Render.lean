import DocPress.Document.Element
import DocPress.Latex.Command

namespace DocPress.Latex
open Text Document

structure FootnoteCounter where
  value : Nat := 0
deriving DecidableEq, Repr

def FootnoteCounter.advance (counter : FootnoteCounter) (count : Nat) : FootnoteCounter :=
  ⟨counter.value + count⟩

structure NumberedFootnote where
  footnote : Footnote
  offset : Nat
  number : Nat
deriving DecidableEq, Repr

def numberFootnotes (table : Table) (counter : FootnoteCounter) : List NumberedFootnote :=
  table.footnotes.zipIdx.map fun (footnote, position) =>
    ⟨footnote, position + 1, counter.value + position + 1⟩

def counterAfter (table : Table) (counter : FootnoteCounter) : FootnoteCounter :=
  counter.advance table.footnotes.length

def columnsOf (table : Table) (style : TableStyle) : Columns :=
  match table.columnWidths with
  | some (.ok widths) => if widths.isEmpty then .equal table.columnCount else .shares widths style.columnUnits
  | some (.error _) | none => .equal table.columnCount

def headerCommands (table : Table) (style : TableStyle) : List Command :=
  match table.headerTitles with
  | none => []
  | some titles => [.rowColor style.headerColor, .row titles, .midRule]

def rowCommands (table : Table) : List Command :=
  table.rows.map fun row => .row (row.map (cellText table))

def tabularCommands (table : Table) (style : TableStyle) : List Command :=
  if table.columnCount = 0 then []
  else
    [.beginTabular (columnsOf table style), .topRule] ++ headerCommands table style ++ rowCommands table ++
      [.bottomRule, .endTabular]

def footnoteCommands (table : Table) (counter : FootnoteCounter) : List Command :=
  let numbered := numberFootnotes table counter
  match numbered.getLast? with
  | none => []
  | some last =>
    (numbered.map fun n => .footnoteText n.offset n.footnote.text) ++ [.restoreFootnoteCounter last.offset]

def tableCommands (table : Table) (style : TableStyle) (counter : FootnoteCounter) : List Command :=
  [.saveFootnoteCounter, .beginTable, .centering, .rowColors style.evenRowColor style.oddRowColor] ++
    table.title.toList.map .caption ++ table.anchor.toList.map .label ++ tabularCommands table style ++
    [.endTable] ++ footnoteCommands table counter

def tableNotes (table : Table) (counter : FootnoteCounter) : List Note :=
  let grid :=
    if table.columnCount = 0 then [.tableWithoutRows table.title]
    else
      match table.columnWidths with
      | some (.error raw) => [.widthsUnreadable raw]
      | _ => []
  let numbered := numberFootnotes table counter
  match numbered.head?, numbered.getLast? with
  | some first, some last => grid ++ [.footnotesNumbered first.number last.number]
  | _, _ => grid

structure Style where
  table : TableStyle := {}
  figure : FigureStyle := {}
deriving DecidableEq, Repr

def figureCommands (figure : Figure) (style : FigureStyle) : List Command :=
  [.beginFigure, .centering] ++ figure.path.toList.map (.graphics style.width) ++ [.caption figure.caption] ++
    figure.anchor.toList.map .label ++ [.endFigure]

def commandIsland (commands : List Command) : List Text :=
  island (commands.map Command.source)

def renderElement (style : Style) (counter : FootnoteCounter) : Element → List Text
  | .header overline title underline => overline.toList ++ [title, underline]
  | .paragraph lines => lines
  | .label anchor => commandIsland [.label anchor]
  | .table table => commandIsland (tableCommands table style.table counter)
  | .figure figure => commandIsland (figureCommands figure style.figure)

def counterAfterElement (counter : FootnoteCounter) : Element → FootnoteCounter
  | .table table => counterAfter table counter
  | _ => counter

def elementNotes (counter : FootnoteCounter) : Element → List Note
  | .table table => tableNotes table counter
  | _ => []

def renderLines (style : Style) (counter : FootnoteCounter) : List Element → List Text
  | [] => []
  | element :: rest =>
    renderElement style counter element ++ [] :: renderLines style (counterAfterElement counter element) rest

def finalCounter (counter : FootnoteCounter) (elements : List Element) : FootnoteCounter :=
  elements.foldl counterAfterElement counter

def renderNotes (counter : FootnoteCounter) : List Element → List Note
  | [] => []
  | element :: rest =>
    .rendering element.kind :: elementNotes counter element ++
      renderNotes (counterAfterElement counter element) rest

def render (style : Style) (counter : FootnoteCounter) (elements : List Element) : Text :=
  joinWith ['\n'] (renderLines style counter elements)

end DocPress.Latex
