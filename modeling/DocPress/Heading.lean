import DocPress.Text.Basic

namespace DocPress.Heading
open Text

inductive Marker where
  | hash
  | star
  | equals
  | dash
  | quote
  | caret
  | tilde
deriving DecidableEq, Repr

namespace Marker

def all : List Marker :=
  [hash, star, equals, dash, quote, caret, tilde]

def toChar : Marker → Char
  | hash => '#'
  | star => '*'
  | equals => '='
  | dash => '-'
  | quote => '"'
  | caret => '^'
  | tilde => '~'

def ofChar? (c : Char) : Option Marker :=
  all.find? fun marker => marker.toChar == c

def depth : Marker → Nat
  | hash => 0
  | star => 1
  | equals => 2
  | dash => 3
  | quote => 4
  | caret => 5
  | tilde => 6

def ofDepth? (n : Nat) : Option Marker :=
  all[n]?

theorem ofDepth?_depth (marker : Marker) : ofDepth? marker.depth = some marker := by
  cases marker <;> rfl

theorem ofChar?_toChar (marker : Marker) : ofChar? marker.toChar = some marker := by
  cases marker <;> rfl

theorem ofChar?_eq_some_iff {c : Char} {marker : Marker} : ofChar? c = some marker ↔ c = marker.toChar := by
  constructor
  · intro found
    exact (beq_iff_eq.mp (List.find?_some (p := fun marker : Marker => marker.toChar == c) found)).symm
  · rintro rfl
    exact ofChar?_toChar marker

theorem ofDepth?_eq_some_iff {n : Nat} {marker : Marker} : ofDepth? n = some marker ↔ n = marker.depth := by
  constructor
  · intro found
    match n, found with
    | 0, rfl | 1, rfl | 2, rfl | 3, rfl | 4, rfl | 5, rfl | 6, rfl => rfl
  · rintro rfl
    exact ofDepth?_depth marker

end Marker

def underlineMarker? (line : Text) : Option Marker :=
  match trimEnd line with
  | [] => none
  | first :: rest =>
    if 2 ≤ rest.length && rest.all (· == first) then Marker.ofChar? first else none

def isUnderline (line : Text) : Bool :=
  (underlineMarker? line).isSome

def underlineFor (title : Text) (marker : Marker) : Text :=
  List.replicate (trimEnd title).length marker.toChar

/-- Fit the underline at `index` to the title above it, and with it an overline of the same marker. Nothing
changes where the line is no underline or no title stands above it. -/
def resizeAt (lines : List Text) : Nat → List Text
  | 0 => lines
  | above + 1 =>
    match lines[above]?, (lines[above + 1]?).bind underlineMarker? with
    | some title, some marker =>
      if isBlank title then lines
      else
        let fitted := underlineFor title marker
        let resized := lines.set (above + 1) fitted
        match above with
        | 0 => resized
        | before + 1 =>
          if (lines[before]?).bind underlineMarker? = some marker then resized.set before fitted else resized
    | _, _ => lines

def hierarchy : List Text → List Marker
  | [] => []
  | line :: rest =>
    match underlineMarker? line with
    | none => hierarchy rest
    | some marker => marker :: (hierarchy rest).filter (· ≠ marker)

/-- The first depth without a marker, for a hierarchy that does not fit from `level` on. Levels are small numbers: that of
a file plus the number of its markers is taken to fit into a machine word. -/
def unfitDepth? (markers : List Marker) (level : Nat) : Option Nat :=
  if level + markers.length > Marker.all.length then some (max Marker.all.length level) else none

def globalMarker? (markers : List Marker) (marker : Marker) (level : Nat) : Option Marker :=
  (markers.idxOf? marker).bind fun position => Marker.ofDepth? (level + position)

/-- One line of a file taken in at `level`: an underline keeps its length and gets its marker in the document,
and every line loses the white space at its end. -/
def normalizeLine (markers : List Marker) (level : Nat) (line : Text) : Text :=
  let visible := trimEnd line
  match (underlineMarker? visible).bind fun marker => globalMarker? markers marker level with
  | some marker => List.replicate visible.length marker.toChar
  | none => visible

/-- The lines of a file with its headings moved to `level`, or the depth at which the alphabet ends. As in `unfitDepth?`, the
level plus the number of markers is taken to fit into a machine word. -/
def normalize (lines : List Text) (level : Nat) : Except Nat (List Text) :=
  let markers := hierarchy lines
  match unfitDepth? markers level with
  | some depth => .error depth
  | none => .ok (lines.map (normalizeLine markers level))

end DocPress.Heading
