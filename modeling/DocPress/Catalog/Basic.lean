import DocPress.Heading
import DocPress.Tree

namespace DocPress

structure Phrase where
  source : Text
  target : Text
deriving DecidableEq, Repr

structure Catalog where
  entries : List Phrase := []
  index : List (Text × Nat) := []
deriving DecidableEq, Repr

namespace Catalog
open Text

def position? (catalog : Catalog) (source : Text) : Option Nat :=
  catalog.index.lookup source

def insert (catalog : Catalog) (phrase : Phrase) : Catalog :=
  match catalog.position? phrase.source with
  | some position =>
    { catalog with entries := catalog.entries.modify position fun entry => { entry with target := phrase.target } }
  | none => ⟨catalog.entries ++ [phrase], (phrase.source, catalog.entries.length) :: catalog.index⟩

def ofList (phrases : List Phrase) : Catalog :=
  phrases.foldl insert {}

def size (catalog : Catalog) : Nat :=
  catalog.entries.length

def get? (catalog : Catalog) (source : Text) : Option Text := do
  let position ← catalog.position? source
  catalog.entries[position]?.map Phrase.target

def better (best : Option Phrase) (entry : Phrase) : Option Phrase :=
  match best with
  | none => some entry
  | some current => if current.source.length < entry.source.length then some entry else some current

def longestMatch? (catalog : Catalog) (line : Text) : Option Phrase :=
  (catalog.entries.filter fun entry => occurs entry.source line).foldl better none

def path (file : Path) (language : Text) : Path :=
  let directory := ((file.directory.join "locales".toList).join language).join "LC_MESSAGES".toList
  directory.join (file.stem ++ ".po".toList)

end Catalog

end DocPress

namespace DocPress.Catalog
open Text Heading

def isJoint (c : Char) : Bool :=
  c.isAlphanum || ".,\"#$%&'()|:\\".toList.contains c

/-- Whether a line may go on with a sentence: it starts with a joint, at once or after more than three columns
of white space of which the first three are spaces. -/
def startsJoined (line : Text) : Bool :=
  line.head?.any isJoint ||
    match afterLead? "   ".toList line with
    | none => false
    | some rest => rest.head?.any isSpace && (trimStart rest).head?.any isJoint

def continuesLine (previous line : Text) : Bool :=
  previous.getLast?.any isJoint && !isUnderline previous && startsJoined line && !isUnderline line &&
    !startsWith "| ".toList (trimStart line)

def joinFrom (current : Text) : List Text → List Text
  | [] => [current]
  | line :: rest =>
    if continuesLine current line then joinFrom (current ++ ' ' :: line.dropWhile (· == ' ')) rest
    else current :: joinFrom line rest

def joinWrapped : List Text → List Text
  | [] => []
  | line :: rest => joinFrom line rest

def localizeLine (catalog : Catalog) (line : Text) : Text :=
  match catalog.longestMatch? line with
  | some phrase => replaceAll phrase.source phrase.target (trimEnd line)
  | none => line

def resizeAll (lines : List Text) : List Text :=
  (List.range lines.length).foldl resizeAt lines

def localize (catalog : Catalog) (lines : List Text) : List Text :=
  resizeAll ((joinWrapped lines).map (localizeLine catalog))

end DocPress.Catalog
