import DocPress.Document.Parser

namespace DocPress.Document
open Text Markup

structure Figure where
  path : Option Text := none
  caption : Text := []
  anchor : Option Text := none
deriving DecidableEq, Repr

namespace Figure

def precedesCaption (line : Text) : Bool :=
  line.isEmpty || (option? line).isSome

def parse (lines : List Text) (anchor : Option Text) : Figure :=
  let body := (lines.drop 1).map trim
  { path := (lines.head?.bind (directiveArgument? "figure".toList)).map trim
    caption := joinWith [' '] ((body.dropWhile precedesCaption).takeWhile fun line => !line.isEmpty)
    anchor := anchor }

end Figure

inductive Element where
  | header (overline : Option Text) (title underline : Text)
  | label (anchor : Text)
  | paragraph (lines : List Text)
  | table (table : Table)
  | figure (figure : Figure)
deriving DecidableEq, Repr

namespace Element

def ofBlock : Block → Element
  | .header overline title underline => .header overline title underline
  | .label anchor => .label anchor
  | .paragraph lines => .paragraph lines
  | .table lines anchor => .table (Table.parse lines anchor)
  | .figure lines anchor => .figure (Figure.parse lines anchor)

def kind : Element → Text
  | header .. => "header".toList
  | label _ => "label".toList
  | paragraph _ => "paragraph".toList
  | table _ => "csv-table".toList
  | figure _ => "figure".toList

def anchor? : Element → Option Text
  | label anchor => some anchor
  | table t => t.anchor
  | figure f => f.anchor
  | header .. | paragraph _ => none

end Element

def parse (lines : List Text) : List Element :=
  (blocks lines).map Element.ofBlock

def parseNotes (lines : List Text) : List Note :=
  (read lines).notes

structure Stats where
  headers : Nat := 0
  labels : Nat := 0
  paragraphs : Nat := 0
  tables : Nat := 0
  figures : Nat := 0
deriving DecidableEq, Repr

namespace Stats

def count (stats : Stats) : Element → Stats
  | .header .. => { stats with headers := stats.headers + 1 }
  | .label _ => { stats with labels := stats.labels + 1 }
  | .paragraph _ => { stats with paragraphs := stats.paragraphs + 1 }
  | .table t => { stats with tables := stats.tables + 1, labels := stats.labels + t.anchor.isSome.toNat }
  | .figure f => { stats with figures := stats.figures + 1, labels := stats.labels + f.anchor.isSome.toNat }

def of (elements : List Element) : Stats :=
  elements.foldl count {}

end Stats

end DocPress.Document
