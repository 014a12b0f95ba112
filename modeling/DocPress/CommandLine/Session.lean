import DocPress.CommandLine.Arguments
import DocPress.Run

namespace DocPress.CommandLine
open Text Run

def versionLine : Text :=
  "rstprep 0.1.0\n".toList

def line (parts : List Text) : Text :=
  parts.flatten ++ ['\n']

def doneLine (parts : List Text) : Text :=
  line ("✓ ".toList :: parts)

def countLine (count : Nat) (what : String) : Text :=
  line ["  - ".toList, ofNat count, ' ' :: what.toList]

def statsText (stats : Document.Stats) : Text :=
  countLine stats.headers "headers" ++ countLine stats.paragraphs "paragraphs" ++ countLine stats.tables "tables" ++
    countLine stats.figures "figures" ++ countLine stats.labels "labels"

def eventText (verbose : Bool) : Event → Text
  | .stageStarted index =>
    line ["\n[Stage ".toList, ofNat index, ['/'], ofNat stages.length, "] ".toList,
      stages.getD (index - 1) [], "...".toList]
  | .flattened files lines =>
    doneLine ["Flattened ".toList, ofNat files, " files into ".toList, ofNat lines, " lines".toList]
  | .substituted placeholders => doneLine ["Applied ".toList, ofNat placeholders, " placeholder definitions".toList]
  | .contentsInlined titles => doneLine ["Checked ".toList, ofNat titles, " heading titles".toList]
  | .parsed elements stats =>
    doneLine ["Parsed ".toList, ofNat elements, " elements".toList] ++ if verbose then statsText stats else []
  | .written output footnotes =>
    (if verbose then countLine footnotes "table footnotes" else []) ++
      doneLine ["Successfully wrote: ".toList, output]

def causeText (numbered : Bool) (index : Nat) (cause : Text) : Text :=
  let lead := if numbered then "    ".toList ++ ofNat index ++ ": ".toList else "    ".toList
  let further := '\n' :: List.replicate (if numbered then 7 else 4) ' '
  line [lead, replaceAll ['\n'] further cause]

def failureText (message : Text) (causes : List Text) : Text :=
  let header := line ["Error: ".toList, message]
  if causes.isEmpty then header
  else
    header ++ "\nCaused by:\n".toList ++
      (causes.zipIdx.flatMap fun (cause, index) => causeText (1 < causes.length) index cause)

structure Session where
  exitCode : Nat
  error : Option Run.Error := none
  stdout : Text := []
  stderr : Text := []
  notes : List Note := []
  tree : Tree

def settingsOf (tree : Tree) (arguments : Arguments) : Except LoadError Settings :=
  match arguments.config with
  | none => .ok {}
  | some path => loadSettings tree path

def greeting (arguments : Arguments) : Text :=
  line ["Preprocessing documentation...".toList] ++ line ["Input: ".toList, arguments.input] ++
    line ["Output: ".toList, arguments.output] ++
    (arguments.language.toList.flatMap fun language => line ["Language: ".toList, language])

def perform (tree : Tree) (arguments : Arguments) : Session :=
  match settingsOf tree arguments with
  | .error error =>
    let messages := error.messages
    { exitCode := 1, stderr := failureText (messages.headD []) messages.tail, tree := tree }
  | .ok settings =>
    let loaded := arguments.config.toList.map Note.settingsLoaded
    let report := process tree {
      input := arguments.input
      output := arguments.output
      appName := arguments.appName
      version := arguments.version
      language := arguments.language
      settings := settings }
    let progress := greeting arguments ++ report.events.flatMap (eventText arguments.verbose)
    let notes := loaded ++ report.notes
    match report.result with
    | .ok _ =>
      { exitCode := 0
        stdout := progress ++ line ["\n✓ Preprocessing completed successfully!".toList]
        notes := notes
        tree := report.tree }
    | .error error =>
      { exitCode := 1
        error := some error
        stdout := progress
        stderr := failureText ("Failed to preprocess ".toList ++ arguments.input) error.messages
        notes := notes
        tree := report.tree }

def session (tree : Tree) (arguments : List Text) : Session :=
  match Arguments.parse arguments with
  | .error refusal =>
    { exitCode := refusal.exitCode, stdout := if refusal = .versionWanted then versionLine else [], tree := tree }
  | .ok parsed => perform tree parsed

end DocPress.CommandLine
