import DocPress.Tree

/-!
The arguments of the program: four words in a fixed order, and options between them. The value of an option stands in
the same argument or in the next one, and a value is taken in when the argument after it is met. So of two faults the
one further left counts, except that a name that is no option counts at once.
-/

namespace DocPress.CommandLine
open Text

inductive Refusal where
  | missingArgument
  | unknownArgument
  | repeatedOption
  | invalidValue
  | unwantedValue
  | helpWanted
  | versionWanted
deriving DecidableEq, Repr

def Refusal.exitCode : Refusal → Nat
  | helpWanted | versionWanted => 0
  | _ => 2

inductive Slot where
  | input
  | output
  | appName
  | version
  | language
  | config
deriving DecidableEq, Repr

def Slot.words : List Slot :=
  [input, output, appName, version]

def Slot.isPath : Slot → Bool
  | input | output | config => true
  | appName | version | language => false

structure Waiting where
  slot : Slot
  value : Option Text
deriving DecidableEq, Repr

/-- The arguments read so far. Behind a lone `--` every argument is a word. -/
structure Scan where
  values : List (Slot × Text) := []
  verbose : Bool := false
  waiting : Option Waiting := none
  wordCount : Nat := 0
  wordsOnly : Bool := false
deriving DecidableEq, Repr

namespace Scan

def value? (scan : Scan) (slot : Slot) : Option Text :=
  scan.values.lookup slot

def store (scan : Scan) (slot : Slot) (value : Text) : Except Refusal Scan :=
  if (scan.value? slot).isSome then .error .repeatedOption
  else if slot.isPath && value.isEmpty then .error .invalidValue
  else .ok { scan with values := scan.values ++ [(slot, value)] }

def settle (scan : Scan) : Except Refusal Scan :=
  match scan.waiting with
  | none => .ok scan
  | some ⟨_, none⟩ => .error .invalidValue
  | some ⟨slot, some value⟩ => { scan with waiting := none }.store slot value

def readOption (scan : Scan) (slot : Slot) (attached : Option Text) : Except Refusal Scan := do
  let settled ← scan.settle
  match attached with
  | some value => settled.store slot value
  | none => .ok { settled with waiting := some ⟨slot, none⟩ }

def readVerbose (scan : Scan) : Except Refusal Scan := do
  let settled ← scan.settle
  if settled.verbose then .error .repeatedOption else .ok { settled with verbose := true }

def readRequest (scan : Scan) (request : Refusal) : Except Refusal Scan := do
  let _ ← scan.settle
  .error request

def readLong (scan : Scan) (argument : Text) : Except Refusal Scan :=
  let name := argument.takeWhile (· ≠ '=')
  let attached := if argument.contains '=' then some (argument.drop (name.length + 1)) else none
  if name = "translate".toList then scan.readOption .language attached
  else if name = "config".toList then scan.readOption .config attached
  else if name = "verbose".toList || name = "help".toList || name = "version".toList then
    if attached.isSome then .error .unwantedValue
    else if name = "verbose".toList then scan.readVerbose
    else if name = "help".toList then scan.readRequest .helpWanted
    else scan.readRequest .versionWanted
  else .error .unknownArgument

def attachedValue? : Text → Option Text
  | [] => none
  | '=' :: value => some value
  | value => some value

def readShort (scan : Scan) : Text → Except Refusal Scan
  | [] => .ok scan
  | 't' :: rest => scan.readOption .language (attachedValue? rest)
  | 'c' :: rest => scan.readOption .config (attachedValue? rest)
  | 'h' :: _ => scan.readRequest .helpWanted
  | 'V' :: _ => scan.readRequest .versionWanted
  | 'v' :: rest =>
    match scan.readVerbose with
    | .ok next => readShort next rest
    | .error refusal => .error refusal
  | _ => .error .unknownArgument

def readWord (scan : Scan) (word : Text) : Except Refusal Scan :=
  match Slot.words[scan.wordCount]? with
  | none => .error .unknownArgument
  | some slot => do
    let settled ← scan.settle
    .ok { settled with waiting := some ⟨slot, some word⟩, wordCount := settled.wordCount + 1 }

def read (scan : Scan) (argument : Text) : Except Refusal Scan :=
  if scan.wordsOnly then scan.readWord argument
  else if argument = "--".toList then .ok { scan with wordsOnly := true }
  else
    match argument with
    | '-' :: '-' :: rest => scan.readLong rest
    | '-' :: c :: rest => scan.readShort (c :: rest)
    | _ =>
      match scan.waiting with
      | some ⟨slot, none⟩ => .ok { scan with waiting := some ⟨slot, some argument⟩ }
      | _ => scan.readWord argument

end Scan

structure Arguments where
  input : Path
  output : Path
  appName : Text
  version : Text
  languageName : Option Text
  config : Option Path
  verbose : Bool
deriving DecidableEq, Repr

namespace Arguments

def language (arguments : Arguments) : Option Text :=
  arguments.languageName.filter fun name => !name.isEmpty

def ofScan? (scan : Scan) : Option Arguments := do
  return {
    input := ← scan.value? .input
    output := ← scan.value? .output
    appName := ← scan.value? .appName
    version := ← scan.value? .version
    languageName := scan.value? .language
    config := scan.value? .config
    verbose := scan.verbose }

def parse (arguments : List Text) : Except Refusal Arguments := do
  let scan ← arguments.foldlM Scan.read {}
  let settled ← scan.settle
  match ofScan? settled with
  | some parsed => .ok parsed
  | none => .error .missingArgument

end Arguments
end DocPress.CommandLine
