import DocPress.Catalog.Basic

namespace DocPress.Catalog
open Text

def blocks : List Text → List (List Text)
  | [] => []
  | [line] => if isBlank line then [] else [[line]]
  | line :: next :: rest =>
    if isBlank line then blocks (next :: rest)
    else if isBlank next then [line] :: blocks (next :: rest)
    else
      match blocks (next :: rest) with
      | [] => [[line]]
      | block :: more => (line :: block) :: more

def quoted? (t : Text) : Option Text :=
  match t.dropWhile (· ≠ '"') with
  | [] => none
  | _ :: rest =>
    match rest.reverse.dropWhile (· ≠ '"') with
    | [] => none
    | _ :: inner => some inner.reverse

def unescape : Text → Text
  | '\\' :: '"' :: rest => '"' :: unescape rest
  | '\\' :: '\\' :: rest => '\\' :: unescape rest
  | c :: rest => c :: unescape rest
  | [] => []

inductive Open where
  | source
  | target
  | neither
deriving DecidableEq, Repr

structure Message where
  source : Text := []
  target : Text := []
  continues : Open := .neither
deriving DecidableEq, Repr

def Message.extend (message : Message) (part : Open) (t : Text) : Message :=
  let piece := (quoted? t).getD []
  match part with
  | .source => { message with source := message.source ++ piece, continues := .source }
  | .target => { message with target := message.target ++ piece, continues := .target }
  | .neither => { message with continues := .neither }

/-- Read one line of a block. Comments leave an open string open; any other keyword closes it. -/
def Message.read (message : Message) (line : Text) : Message :=
  let line := trim line
  if line.isEmpty || startsWith ['#'] line then message
  else
    match afterLead? "msgid ".toList line, afterLead? "msgstr ".toList line with
    | some rest, _ => message.extend .source rest
    | none, some rest => message.extend .target rest
    | none, none => if startsWith ['"'] line then message.extend message.continues line else message.extend .neither []

def phraseOf? (block : List Text) : Option Phrase :=
  let message := block.foldl Message.read {}
  let phrase : Phrase := ⟨unescape message.source, unescape message.target⟩
  if phrase.source.isEmpty || phrase.target.isEmpty then none else some phrase

def phrases (content : Text) : List Phrase :=
  ((blocks (lines content)).drop 1).filterMap phraseOf?

def parse (content : Text) : Catalog :=
  ofList (phrases content)

def repeated (before : List Text) : List Phrase → List Text
  | [] => []
  | phrase :: rest =>
    if before.contains phrase.source then phrase.source :: repeated before rest
    else repeated (phrase.source :: before) rest

end DocPress.Catalog
