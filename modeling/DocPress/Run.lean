import DocPress.Flatten.Basic
import DocPress.Latex.Render
import DocPress.Settings

/-!
One run over a document tree, in five stages: flatten the tree, replace placeholders, inline the listed headings, read
the document, and render it. Only the last stage writes, so a run that fails leaves the tree as it was.
-/

namespace DocPress.Run
open Text Document

structure Job where
  input : Path
  output : Path
  appName : Text
  version : Text
  language : Option Text := none
  settings : Settings := {}
deriving DecidableEq, Repr

inductive Error where
  | flattening (error : Flatten.Error)
  | unwritable (path : Path) (failure : Failure)
deriving DecidableEq, Repr

def Error.messages : Error → List Text
  | flattening error =>
    let inner := error.message
    ("Error flattening document tree: ".toList ++ inner) :: inner ::
      match error with
      | .unreadable _ failure => [failure.message]
      | _ => []
  | unwritable path failure =>
    ["IO error writing ".toList ++ path ++ ": ".toList ++ failure.message, failure.message]

def Error.message (error : Error) : Text :=
  error.messages.headD []

def Error.missingPath? : Error → Option Path
  | flattening (.missingFile path _) | flattening (.missingCatalog _ _ path) => some path
  | flattening (.unreadable path .notFound) => some path
  | _ => none

inductive LoadError where
  | unreadable (path : Path) (failure : Failure)
  | invalid (path : Path) (error : SettingsError)
deriving DecidableEq, Repr

def LoadError.cause : LoadError → Text
  | unreadable _ failure => "IO error: ".toList ++ failure.message
  | invalid _ error => error.message

def LoadError.path : LoadError → Path
  | unreadable path _ | invalid path _ => path

def LoadError.messages (error : LoadError) : List Text :=
  ("Config error loading ".toList ++ error.path ++ ": ".toList ++ error.cause) :: error.cause ::
    match error with
    | unreadable _ failure => [failure.message]
    | invalid .. => []

def loadSettings (tree : Tree) (path : Path) : Except LoadError Settings :=
  match tree.readText path with
  | .error failure => .error (.unreadable path failure)
  | .ok content =>
    match Settings.parse content with
    | .error error => .error (.invalid path error)
    | .ok settings => .ok settings

def placeholders (appName version : Text) (settings : Settings) : List (Text × Text) :=
  ("AppName".toList, appName) :: ("version".toList, version) :: settings.placeholders

def substitute (values : List (Text × Text)) (lines : List Text) : List Text :=
  values.foldl (fun lines (name, value) => Placeholder.replace lines name value) lines

def substituteNotes : List (Text × Text) → List Text → List Note
  | [], _ => []
  | (name, value) :: rest, lines =>
    .placeholderReplaced (Placeholder.token name) (Placeholder.count lines name) ::
      substituteNotes rest (Placeholder.replace lines name value)

def style (settings : Settings) : Latex.Style :=
  ⟨settings.table, settings.figure⟩

structure Product where
  substituted : List Text
  inlined : List Text
  elements : List Element
  text : Text
  footnotes : Nat
  notes : List Note
deriving Repr

def prepare (appName version : Text) (settings : Settings) (lines : List Text) : Product :=
  let values := placeholders appName version settings
  let substituted := substitute values lines
  let inlined := Contents.inlineListed settings.contentsTitles substituted
  let elements := Document.parse inlined
  { substituted := substituted
    inlined := inlined
    elements := elements
    text := Latex.render (style settings) {} elements
    footnotes := (Latex.finalCounter {} elements).value
    notes := substituteNotes values lines ++
      (Contents.found settings.contentsTitles substituted).map Note.headingInlined ++
      Document.parseNotes inlined ++ [.documentParsed elements.length] ++ Latex.renderNotes {} elements }

def stages : List Text :=
  ["Flattening document tree".toList, "Replacing placeholders".toList,
    "Inlining table of contents headings".toList, "Parsing document".toList, "Rendering raw LaTeX".toList]

inductive Event where
  | stageStarted (index : Nat)
  | flattened (files lines : Nat)
  | substituted (placeholders : Nat)
  | contentsInlined (titles : Nat)
  | parsed (elements : Nat) (stats : Stats)
  | written (output : Path) (footnotes : Nat)
deriving DecidableEq, Repr

structure Summary where
  filesFlattened : Nat
  tocInserted : Bool
  stats : Stats
  footnotes : Nat
  linesWritten : Nat
deriving DecidableEq, Repr

structure Report where
  result : Except Error Summary
  events : List Event
  notes : List Note
  tree : Tree

def progress (job : Job) (files : Nat) (lines : List Text) (product : Product) : List Event :=
  [.stageStarted 1, .flattened files lines.length,
    .stageStarted 2, .substituted (2 + job.settings.placeholders.length),
    .stageStarted 3, .contentsInlined job.settings.contentsTitles.length,
    .stageStarted 4, .parsed product.elements.length (Stats.of product.elements),
    .stageStarted 5]

def process (tree : Tree) (job : Job) : Report :=
  let flat := Flatten.flattenTree tree job.input (.new job.language)
  match flat.result with
  | .error error => ⟨.error (.flattening error), [.stageStarted 1], flat.notes, tree⟩
  | .ok lines =>
    let product := prepare job.appName job.version job.settings lines
    let events := progress job flat.context.filesFlattened lines product
    let notes := flat.notes ++ product.notes
    match tree.writeText job.output product.text with
    | .error failure => ⟨.error (.unwritable job.output failure), events, notes, tree⟩
    | .ok written =>
      { result := .ok {
          filesFlattened := flat.context.filesFlattened
          tocInserted := flat.context.tocInserted
          stats := Stats.of product.elements
          footnotes := product.footnotes
          linesWritten := (Text.lines product.text).length }
        events := events ++ [.written job.output product.footnotes]
        notes := notes ++ [.outputWritten job.output]
        tree := written }

end DocPress.Run
