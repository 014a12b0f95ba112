import DocPress.Note

namespace DocPress.Flatten
open Text

inductive Error where
  | unreadable (path : Path) (failure : Failure)
  | missingFile (path referencedFrom : Path)
  | missingCatalog (language : Text) (file catalog : Path)
  | directiveWithoutTarget (path : Path) (line : Nat) (content : Text)
  /-- A file that includes itself, by way of a chain of files from the outermost to itself again. -/
  | circularInclude (path : Path) (chain : List Location)
  | headingTooDeep (path : Path) (depth : Nat)
  | nestedTooDeep (path : Path)
deriving DecidableEq, Repr

namespace Error

def message : Error → Text
  | unreadable path failure => "IO error reading ".toList ++ path ++ ": ".toList ++ failure.message
  | missingFile path referencedFrom =>
    "Referenced file ".toList ++ path ++ " does not exist (referenced from ".toList ++ referencedFrom ++ [')']
  | missingCatalog language file catalog =>
    "Translation '".toList ++ language ++ "' for ".toList ++ file ++ " does not exist at ".toList ++ catalog
  | directiveWithoutTarget path line content =>
    "Could not parse directive in ".toList ++ path ++ " line ".toList ++ ofNat line ++ ": ".toList ++ content
  | circularInclude path chain =>
    "Circular include of ".toList ++ path ++ ": ".toList ++ joinWith " -> ".toList (chain.map Location.path)
  | headingTooDeep path depth =>
    "Heading depth ".toList ++ ofNat depth ++ " in ".toList ++ path ++ " exceeds the ".toList ++
      ofNat Heading.Marker.all.length ++ " available heading levels".toList
  | nestedTooDeep path => "Files are nested too deep at ".toList ++ path

end Error

structure Context where
  language : Option Text := none
  tocInserted : Bool := false
  /-- The files that are being flattened, from the outermost to the innermost. -/
  includeStack : List Location := []
  filesFlattened : Nat := 0
deriving DecidableEq, Repr

namespace Context

def new (language : Option Text) : Context :=
  { language := language.filter fun name => !name.isEmpty }

def enter (context : Context) (location : Location) : Context :=
  { context with includeStack := context.includeStack ++ [location] }

def leave (context : Context) : Context :=
  { context with includeStack := context.includeStack.dropLast }

def countFile (context : Context) : Context :=
  { context with filesFlattened := context.filesFlattened + 1 }

end Context

structure Outcome where
  result : Except Error (List Text)
  context : Context
  notes : List Note := []

namespace Outcome

def done (lines : List Text) (context : Context) : Outcome :=
  ⟨.ok lines, context, []⟩

def failed (error : Error) (context : Context) : Outcome :=
  ⟨.error error, context, []⟩

def noting (notes : List Note) (outcome : Outcome) : Outcome :=
  { outcome with notes := notes ++ outcome.notes }

def prepend (lines : List Text) (outcome : Outcome) : Outcome :=
  { outcome with result := outcome.result.map (lines ++ ·) }

def andThen (outcome : Outcome) (next : List Text → Context → Outcome) : Outcome :=
  match outcome.result with
  | .error _ => outcome
  | .ok lines => (next lines outcome.context).noting outcome.notes

def leave (outcome : Outcome) : Outcome :=
  { outcome with context := outcome.context.leave }

end Outcome

end DocPress.Flatten
