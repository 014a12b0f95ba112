import DocPress.Decimal
import DocPress.Document.Table

namespace DocPress.Latex
open Text Document

structure TableStyle where
  /-- How many units of the `widths` option fill the line. -/
  columnUnits : Nat := 120
  evenRowColor : Text := "table_even_row_color".toList
  oddRowColor : Text := "table_odd_row_color".toList
  headerColor : Text := "table_header_color".toList
deriving DecidableEq, Repr

structure FigureStyle where
  width : Text := "\\textwidth".toList
deriving DecidableEq, Repr

def counterPlus (offset : Nat) : Text :=
  "\\numexpr\\value\x7boriginalfootnotevalue\x7d+".toList ++ ofNat offset

inductive CellPart where
  | text (t : Text)
  | mark (position : Nat)
deriving DecidableEq, Repr

def CellPart.source : CellPart → Text
  | text t => t
  | mark position => "\\footnotemark[".toList ++ counterPlus position ++ [']']

def cellParts (table : Table) (cell : Text) : List CellPart :=
  match _opened : cut? "[#".toList cell with
  | none => [.text cell]
  | some (before, inner) =>
    match _closed : cut? "]_".toList inner with
    | none => [.text cell]
    | some (name, after) =>
      let tag := '#' :: name
      match table.footnotePosition? tag with
      | some position => .text before :: .mark position :: cellParts table after
      | none => .text (before ++ '[' :: tag ++ "]_".toList) :: cellParts table after
termination_by cell.length
decreasing_by
  all_goals
    have outer := congrArg List.length (cut?_eq_some _opened)
    have inside := congrArg List.length (cut?_eq_some _closed)
    simp only [List.length_append, String.length_toList] at outer inside
    have : "[#".length = 2 := rfl
    omega

def markedCell (table : Table) (cell : Text) : Text :=
  (cellParts table cell).flatMap CellPart.source

/-- A cell as LaTeX: single quotes at its ends are delimiters, and an escaped asterisk is a star. -/
def cellText (table : Table) (cell : Text) : Text :=
  replaceAll "\\*".toList "$*$".toList (stripWhile (· == '\'') (markedCell table cell))

inductive Columns where
  | equal (count : Nat)
  | shares (widths : List Nat) (units : Nat)
deriving DecidableEq, Repr

def Columns.count : Columns → Nat
  | equal count => count
  | shares widths _ => widths.length

def Columns.source : Columns → Text
  | equal count => List.replicate count 'l'
  | shares widths units =>
    joinWith [' '] (widths.map fun width =>
      "p\x7b".toList ++ Decimal.quotientText width units ++ "\\linewidth\x7d".toList)

inductive Command where
  | saveFootnoteCounter
  | restoreFootnoteCounter (offset : Nat)
  | footnoteText (offset : Nat) (text : Text)
  | beginTable
  | endTable
  | centering
  | rowColors (even odd : Text)
  | caption (text : Text)
  | label (anchor : Text)
  | beginTabular (columns : Columns)
  | endTabular
  | topRule
  | midRule
  | bottomRule
  | rowColor (color : Text)
  | row (cells : List Text)
  | beginFigure
  | endFigure
  | graphics (width path : Text)
deriving DecidableEq, Repr

def braced (argument : Text) : Text :=
  '\x7b' :: argument ++ ['\x7d']

def Command.source : Command → Text
  | saveFootnoteCounter =>
    "\\setcounter\x7boriginalfootnotevalue\x7d\x7b\\value\x7bfootnote\x7d\x7d".toList
  | restoreFootnoteCounter offset => "\\setcounter\x7bfootnote\x7d".toList ++ braced (counterPlus offset)
  | footnoteText offset text => "\\footnotetext[".toList ++ counterPlus offset ++ ']' :: braced text
  | beginTable => "\\begin\x7btable\x7d[h!]".toList
  | endTable => "\\end\x7btable\x7d".toList
  | centering => "\\centering".toList
  | rowColors even odd => "\\rowcolors\x7b1\x7d".toList ++ braced even ++ braced odd
  | caption text => "\\caption".toList ++ braced text
  | label anchor => "\\label".toList ++ braced anchor
  | beginTabular columns => "\\begin\x7btabular\x7d".toList ++ braced columns.source
  | endTabular => "\\end\x7btabular\x7d".toList
  | topRule => "\\toprule".toList
  | midRule => "\\midrule".toList
  | bottomRule => "\\bottomrule".toList
  | rowColor color => "\\rowcolor".toList ++ braced color
  | row cells => joinWith " & ".toList cells ++ " \\\\".toList
  | beginFigure => "\\begin\x7bfigure\x7d[htbp]".toList
  | endFigure => "\\end\x7bfigure\x7d".toList
  | graphics width path =>
    "\\includegraphics[width=".toList ++ width ++ ", keepaspectratio]".toList ++ braced path

end DocPress.Latex
