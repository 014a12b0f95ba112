import DocPress.CommandLine.Session

namespace DocPress.Main
open CommandLine

def probe (path : Path) : IO (Option Entry) := do
  try
    let bytes ← IO.FS.readBinFile (← IO.FS.realPath (String.ofList path))
    match String.fromUTF8? bytes with
    | some content => return some (.text content.toList)
    | none => return some .binary
  catch error =>
    match error with
    | .inappropriateType .. => return some .directory
    | _ => return none

def load (tree : Tree) (path : Path) : IO Tree := do
  match ← probe path with
  | some entry => return tree.create path entry
  | none => return tree

def startTree : IO Tree := do
  let directory := (toString (← IO.currentDir)).toList
  let tree := ({} : Tree).create directory .directory
  match tree.resolve directory with
  | .ok location => return { tree with workingDirectory := location }
  | .error _ => return tree

def firstPaths (arguments : Arguments) : List Path :=
  [arguments.input, arguments.output.directory, arguments.output] ++ arguments.config.toList

/-- Run on what is loaded, and again as long as a file is missed that was not looked for yet. -/
def performLoading (arguments : Arguments) : IO Session := do
  let mut tree ← startTree
  let mut looked := firstPaths arguments
  for path in looked do
    tree ← load tree path
  let mut session := perform tree arguments
  while true do
    match session.error.bind Run.Error.missingPath? with
    | none => break
    | some path =>
      if looked.contains path then break
      looked := path :: looked
      tree ← load tree path
      session := perform tree arguments
  return session

def usage : String :=
  "Usage: rstprep [OPTIONS] <INPUT> <OUTPUT> <APP_NAME> <VERSION>\n\n" ++
    "Options:\n  -t, --translate <LANG>\n  -c, --config <FILE>\n  -v, --verbose\n  -h, --help\n  -V, --version\n"

def refuse (refusal : Refusal) : IO UInt32 := do
  let text := if refusal = .versionWanted then String.ofList versionLine else usage
  if refusal.exitCode = 0 then IO.print text else IO.eprint text
  return refusal.exitCode.toUInt32

def printNotes (verbose : Bool) (notes : List Note) : IO Unit := do
  let limit := if verbose then Severity.debug else .warn
  for note in notes do
    if note.severity.rank ≤ limit.rank then
      IO.eprintln (String.ofList ('[' :: note.severity.name ++ "] ".toList ++ note.message))

def writeOutput (arguments : Arguments) (session : Session) : IO Unit := do
  if session.exitCode = 0 then
    match session.tree.readText arguments.output with
    | .ok content => IO.FS.writeFile (String.ofList arguments.output) (String.ofList content)
    | .error _ => return

end DocPress.Main

open DocPress in
def main (arguments : List String) : IO UInt32 := do
  match CommandLine.Arguments.parse (arguments.map String.toList) with
  | .error refusal => Main.refuse refusal
  | .ok parsed =>
    let session ← Main.performLoading parsed
    Main.printNotes parsed.verbose session.notes
    Main.writeOutput parsed session
    IO.print (String.ofList session.stdout)
    IO.eprint (String.ofList session.stderr)
    return session.exitCode.toUInt32
