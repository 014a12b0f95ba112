import DocPress.Text.Basic

/-!
Paths, and a file tree as a value. A tree holds files and directories by their places, and no symbolic links: two paths lead
to one file only if they differ in spelling, by `.`, `..`, slashes or where they start.
-/

namespace DocPress

abbrev Path := Text

namespace Path
open Text

/-- The start of a path that belongs to no component: the slash of an absolute path, or a `.` of its own. -/
def lead : Path → Text
  | '/' :: _ => ['/']
  | ['.'] => ['.']
  | '.' :: '/' :: _ => ['.']
  | _ => []

def isAbsolute (path : Path) : Bool :=
  path.head? == some '/'

def isIdle (component : Text) : Bool :=
  component.isEmpty || component == ['.']

def components (path : Path) : List Text :=
  dropEndWhile isIdle (splitAt '/' (path.drop (lead path).length))

def parent? (path : Path) : Option Path :=
  match components path with
  | [] => if lead path = ['.'] then some [] else none
  | first :: rest =>
    some (lead path ++ joinWith ['/'] (dropEndWhile isIdle (first :: rest).dropLast))

def directory (path : Path) : Path :=
  (parent? path).getD []

def join (base path : Path) : Path :=
  if isAbsolute path then path
  else if base.isEmpty || base.getLast? == some '/' then base ++ path
  else base ++ '/' :: path

def fileName? (path : Path) : Option Text :=
  (components path).getLast?.filter fun name => name ≠ "..".toList

def stemOf (name : Text) : Text :=
  let before := (name.reverse.dropWhile (· ≠ '.')).drop 1
  if before.isEmpty then name else before.reverse

def stem (path : Path) : Text :=
  ((fileName? path).map stemOf).getD []

end Path

abbrev Location := List Text

def Location.path (location : Location) : Path :=
  '/' :: Text.joinWith ['/'] location

inductive Entry where
  | text (content : Text)
  | binary
  | directory
deriving DecidableEq, Repr

inductive Failure where
  | notFound
  | notDirectory
  | isDirectory
  | nameTooLong
  | notText
  | nameWithNul
deriving DecidableEq, Repr

namespace Failure

def message : Failure → Text
  | notFound => "No such file or directory (os error 2)".toList
  | notDirectory => "Not a directory (os error 20)".toList
  | isDirectory => "Is a directory (os error 21)".toList
  | nameTooLong => "File name too long (os error 36)".toList
  | notText => "stream did not contain valid UTF-8".toList
  | nameWithNul => "file name contained an unexpected NUL byte".toList

end Failure

structure Tree where
  entries : List (Location × Entry) := []
  workingDirectory : Location := []
deriving DecidableEq, Repr

namespace Tree
open Text

def entry? (tree : Tree) (location : Location) : Option Entry :=
  if location.isEmpty then some .directory else tree.entries.lookup location

def byteLength (name : Text) : Nat :=
  name.foldl (fun length c => length + c.utf8Size) 0

def descend (tree : Tree) (location : Location) (component : Text) : Except Failure Location :=
  match tree.entry? location with
  | none => .error .notFound
  | some (.text _) | some .binary => .error .notDirectory
  | some .directory =>
    if Path.isIdle component then .ok location
    else if component = "..".toList then .ok location.dropLast
    else if 255 < byteLength component then .error .nameTooLong
    else if (tree.entry? (location ++ [component])).isSome then .ok (location ++ [component])
    else .error .notFound

def startOf (tree : Tree) (path : Path) : Location :=
  if path.isAbsolute then [] else tree.workingDirectory

def pathFailure? (path : Path) : Option Failure :=
  if path.contains '\x00' then some .nameWithNul
  else if path.isEmpty then some .notFound
  else none

def resolve (tree : Tree) (path : Path) : Except Failure Location :=
  match pathFailure? path with
  | some failure => .error failure
  | none => (splitAt '/' path).foldlM tree.descend (tree.startOf path)

/-- Why a path cannot be used to look at a file or to write it: it has to fit into 4095 bytes as a whole. -/
def accessFailure? (path : Path) : Option Failure :=
  (pathFailure? path).or (if 4095 < byteLength path then some .nameTooLong else none)

def access (tree : Tree) (path : Path) : Except Failure Location :=
  match accessFailure? path with
  | some failure => .error failure
  | none => tree.resolve path

def isFile (tree : Tree) (path : Path) : Bool :=
  match tree.access path with
  | .error _ => false
  | .ok location =>
    match tree.entry? location with
    | some (.text _) | some .binary => true
    | some .directory | none => false

def readText (tree : Tree) (path : Path) : Except Failure Text := do
  let location ← tree.access path
  match tree.entry? location with
  | some (.text content) => .ok content
  | some .binary => .error .notText
  | some .directory => .error .isDirectory
  | none => .error .notFound

def put (tree : Tree) (location : Location) (entry : Entry) : Tree :=
  { tree with entries := (location, entry) :: tree.entries.filter fun known => known.1 ≠ location }

def descendMaking (state : Tree × Location) (component : Text) : Tree × Location :=
  let (tree, location) := state
  if Path.isIdle component then (tree, location)
  else if component = "..".toList then (tree, location.dropLast)
  else
    let below := location ++ [component]
    (if (tree.entry? below).isSome then tree else tree.put below .directory, below)

/-- Put an entry where a path leads to, and make the directories that are missing on the way, those too that `..`
leaves again. -/
def create (tree : Tree) (path : Path) (entry : Entry) : Tree :=
  let (tree, location) := (splitAt '/' path).foldl descendMaking (tree, tree.startOf path)
  tree.put location entry

def erase (tree : Tree) (location : Location) : Tree :=
  { tree with entries := tree.entries.filter fun known => !location.isPrefixOf known.1 }

/-- The place at which a path lets a file be written: one in a directory that is there, and not itself a directory.
A slash at the end asks for a directory. -/
def writable (tree : Tree) (path : Path) : Except Failure Location :=
  match accessFailure? path with
  | some failure => .error failure
  | none =>
    let components := splitAt '/' path
    match (dropEndWhile List.isEmpty components).getLast? with
    | none => .error .isDirectory
    | some name => do
      let directory ← (dropEndWhile List.isEmpty components).dropLast.foldlM tree.descend (tree.startOf path)
      let endsInSlash := components.getLast? == some []
      match tree.descend directory name with
      | .error .notFound =>
        if (tree.entry? directory).isNone then .error .notFound
        else if endsInSlash then .error .isDirectory
        else .ok (directory ++ [name])
      | .error failure => .error failure
      | .ok location =>
        if endsInSlash || tree.entry? location = some .directory then .error .isDirectory else .ok location

def writeText (tree : Tree) (path : Path) (content : Text) : Except Failure Tree :=
  (tree.writable path).map fun location => tree.put location (.text content)

end Tree

end DocPress
