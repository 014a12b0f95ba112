import DocPress.Catalog.Reader
import DocPress.Flatten.Outcome
import DocPress.Markup

namespace DocPress.Flatten
open Text Markup Heading

inductive Piece where
  | underline (marker : Marker) (line : Text)
  /-- A toctree, with the lines below it up to a blank one and the entries up to the next. -/
  | toctree (options entries : List Text)
  /-- An include directive on a line counted from 1, with the target as it stands there. -/
  | inclusion (number : Nat) (line : Text) (target : Option Text)
  | plain (line : Text)
deriving DecidableEq, Repr

def piecesFrom (number : Nat) : List Text → List Piece
  | [] => []
  | line :: rest =>
    match underlineMarker? line with
    | some marker => .underline marker line :: piecesFrom (number + 1) rest
    | none =>
      if isDirective "toctree".toList line then
        let options := rest.takeWhile isFilled
        let below := (rest.dropWhile isFilled).drop 1
        let entries := below.takeWhile isFilled
        .toctree options entries ::
          piecesFrom (number + options.length + 2 + entries.length) (below.dropWhile isFilled)
      else if isDirective "include".toList line then
        .inclusion number line (directiveArgument? "include".toList line) :: piecesFrom (number + 1) rest
      else .plain line :: piecesFrom (number + 1) rest
termination_by lines => lines.length
decreasing_by
  all_goals simp only [List.length_cons]
  · omega
  · have options : (rest.dropWhile isFilled).length ≤ rest.length := (List.dropWhile_suffix _).length_le
    have entries : (((rest.dropWhile isFilled).drop 1).dropWhile isFilled).length ≤ (rest.dropWhile isFilled).length - 1 :=
      List.length_drop ▸ (List.dropWhile_suffix _).length_le
    omega
  · omega
  · omega

def pieces (lines : List Text) : List Piece :=
  piecesFrom 1 lines

def caption? (options : List Text) : Option Text :=
  optionValue? "caption".toList options

def localizeFile (tree : Tree) (language : Option Text) (file : Path) (lines : List Text) :
    Except Error (List Text × List Note) :=
  match language with
  | none => .ok (lines, [])
  | some language =>
    let path := Catalog.path file language
    if !tree.isFile path then .error (.missingCatalog language file path)
    else
      match tree.readText path with
      | .error failure => .error (.unreadable path failure)
      | .ok content =>
        let phrases := Catalog.phrases content
        let catalog := Catalog.ofList phrases
        let merged := Catalog.joinWrapped lines
        let notes := (Catalog.repeated [] phrases).map Note.phraseRepeated ++
          [.catalogLoaded catalog.size path,
            .linesLocalized (merged.countP fun line => (catalog.longestMatch? line).isSome) merged.length]
        .ok (catalog.localize lines, notes)

abbrev Entrance := Path → Nat → Context → Outcome

def takeIn (tree : Tree) (enter : Entrance) (file : Path) (reference : Text) (level : Nat) (context : Context) :
    Outcome :=
  let target := file.directory.join (trim reference)
  if tree.isFile target then enter target level context
  else .failed (.missingFile target file) context

def takeEntries (tree : Tree) (enter : Entrance) (file : Path) (level : Nat) : List Text → Context → Outcome
  | [], context => .done [] context
  | entry :: rest, context =>
    let stem := trim entry
    ((takeIn tree enter file (stem ++ ".rst".toList) level context).andThen fun lines context =>
      (takeEntries tree enter file level rest context).prepend (lines ++ [[]])).noting [.toctreeEntry file stem]

def contentsIsland : List Text :=
  Latex.island ["\\tableofcontents".toList, "\\newpage".toList]

def captionLines (caption : Text) (marker : Marker) : List Text :=
  [[], caption, underlineFor caption marker, []]

def takeToctree (tree : Tree) (enter : Entrance) (file : Path) (level : Nat) (options entries : List Text)
    (context : Context) : Outcome :=
  match caption? options with
  | none => takeEntries tree enter file level entries context
  | some caption =>
    match Marker.ofDepth? level with
    | none => .failed (.headingTooDeep file level) context
    | some marker => (takeEntries tree enter file (level + 1) entries context).prepend (captionLines caption marker)

def withContents (file : Path) (context : Context) (next : Context → Outcome) : Outcome :=
  if context.tocInserted then next context
  else ((next { context with tocInserted := true }).prepend contentsIsland).noting [.contentsInserted file]

/-- The pieces of a file with all that they take in, where `level` is the depth of the heading above them. -/
def expand (tree : Tree) (enter : Entrance) (file : Path) : Nat → List Piece → Context → Outcome
  | _, [], context => .done [] context
  | _, .underline marker line :: rest, context =>
    (expand tree enter file marker.depth rest context).prepend [line]
  | level, .plain line :: rest, context =>
    (expand tree enter file level rest context).prepend [line]
  | _, .inclusion number line none :: _, context => .failed (.directiveWithoutTarget file number line) context
  | level, .inclusion _ _ (some target) :: rest, context =>
    ((takeIn tree enter file target level context).andThen fun lines context =>
      (expand tree enter file level rest context).prepend (lines ++ [[]])).noting [.includeEntry file target]
  | level, .toctree options entries :: rest, context =>
    (withContents file context (takeToctree tree enter file level options entries)).andThen fun lines context =>
      (expand tree enter file level rest context).prepend lines

def hierarchyNotes (file : Path) (lines : List Text) (level : Nat) : List Note :=
  let markers := hierarchy lines
  if markers.isEmpty then [] else [.headingMarkers file markers level]

def flattenLines (tree : Tree) (enter : Entrance) (file : Path) (level : Nat) (lines : List Text) (context : Context) :
    Outcome :=
  match normalize lines level with
  | .error depth => .failed (.headingTooDeep file depth) context
  | .ok normalized =>
    (expand tree enter file level (pieces normalized) context).noting (hierarchyNotes file lines level)

def flattenEntered (tree : Tree) (enter : Entrance) (file : Path) (level : Nat) (context : Context) : Outcome :=
  let counted := context.countFile
  Outcome.noting [.flattening file level]
    (match tree.readText file with
    | .error failure => .failed (.unreadable file failure) counted
    | .ok content =>
      match localizeFile tree counted.language file (Text.lines content) with
      | .error error => .failed error counted
      | .ok (lines, notes) => (flattenLines tree enter file level lines counted).noting notes)

def flattenWithin (tree : Tree) : Nat → Entrance
  | 0, path, _, context => .failed (.nestedTooDeep path) context
  | limit + 1, path, level, context =>
    match tree.resolve path with
    | .error failure => .failed (.unreadable path failure) context
    | .ok location =>
      if context.includeStack.contains location then
        .failed (.circularInclude path (context.includeStack ++ [location])) context
      else (flattenEntered tree (flattenWithin tree limit) path level (context.enter location)).leave

/-- Flatten a file whose outermost heading sits at depth `level`, which, with the number of markers in a file, is taken to fit
into a machine word. No file is entered inside itself, so files never nest deeper than the tree has entries. -/
def flattenFile (tree : Tree) (path : Path) (level : Nat) (context : Context) : Outcome :=
  flattenWithin tree (tree.entries.length + 1) path level context

def flattenTree (tree : Tree) (root : Path) (context : Context) : Outcome :=
  flattenFile tree root 0 context

end DocPress.Flatten
