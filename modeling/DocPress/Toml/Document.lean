import DocPress.Toml.Scalar

namespace DocPress.Toml
open Text

abbrev Reader := StateT Text Option

def isGap (c : Char) : Bool :=
  c = ' ' || c = '\t'

def skipGap : Reader Unit :=
  modify fun t => t.dropWhile isGap

def pastLines? : Bool → Text → Option Text
  | _, [] => some []
  | _, '\n' :: rest => pastLines? false rest
  | _, '\r' :: '\n' :: rest => pastLines? false rest
  | true, c :: rest => if isControl c then none else pastLines? true rest
  | false, c :: rest =>
    if isGap c then pastLines? false rest
    else if c = '#' then pastLines? true rest
    else some (c :: rest)

def skipLines : Reader Unit := fun t =>
  (pastLines? false t).map fun rest => ((), rest)

def pastLineEnd? : Bool → Text → Option Text
  | _, [] => some []
  | _, '\n' :: rest => some rest
  | _, '\r' :: '\n' :: rest => some rest
  | true, c :: rest => if isControl c then none else pastLineEnd? true rest
  | false, c :: rest =>
    if isGap c then pastLineEnd? false rest else if c = '#' then pastLineEnd? true rest else none

def endLine : Reader Unit := fun t =>
  (pastLineEnd? false t).map fun rest => ((), rest)

def expect (lead : Text) : Reader Unit := fun t =>
  (afterLead? lead t).map fun rest => ((), rest)

def accept (lead : Text) : Reader Bool := fun t =>
  match afterLead? lead t with
  | some rest => some (true, rest)
  | none => some (false, t)

def isBareKeyChar (c : Char) : Bool :=
  c.isAlphanum || c = '_' || c = '-'

def key : Reader Text := fun t =>
  match t with
  | '"' :: rest => lineString? '"' rest
  | '\'' :: rest => lineString? '\'' rest
  | _ =>
    let bare := t.takeWhile isBareKeyChar
    if bare.isEmpty then none else some (bare, t.dropWhile isBareKeyChar)

def keysUpTo : Nat → Reader (List Text)
  | 0 => failure
  | limit + 1 => do
    skipGap
    let first ← key
    skipGap
    if ← accept ['.'] then return first :: (← keysUpTo limit) else return [first]

/-- A dotted key has at most so many parts, and arrays and tables may stand in each other up to this depth. -/
def depthLimit : Nat := 80

def dottedKey : Reader (List Text × Text) := do
  let keys ← keysUpTo depthLimit
  match keys.getLast? with
  | none => failure
  | some last => return (keys.dropLast, last)

def itemsUpTo (item : Reader Value) : Nat → Reader (List Value)
  | 0 => failure
  | limit + 1 => do
    skipLines
    if ← accept [']'] then return []
    let first ← item
    skipLines
    if ← accept [','] then return first :: (← itemsUpTo item limit)
    expect [']']
    return [first]

def pair (skip : Reader Unit) (item : Reader Value) : Reader (List Text × Text × Value) := do
  let (path, name) ← dottedKey
  skip
  expect ['=']
  skip
  return (path, name, ← item)

def membersUpTo (item : Reader Value) : Nat → Members → Reader Members
  | 0, _ => failure
  | limit + 1, members => do
    skipLines
    if ← accept ['\x7d'] then return members
    let (path, name, value) ← pair skipLines item
    match members.addDotted path name value .braces with
    | none => failure
    | some members =>
      skipLines
      if ← accept [','] then membersUpTo item limit members
      else do
        expect ['\x7d']
        return members

def valueOver (nested : Option (Reader Value)) : Reader Value := do
  let t ← get
  match t, nested with
  | '"' :: _, _ => fun t => (string? '"' t).map fun (s, rest) => (.text s, rest)
  | '\'' :: _, _ => fun t => (string? '\'' t).map fun (s, rest) => (.text s, rest)
  | '[' :: rest, some item =>
    set rest
    return .array false (← itemsUpTo item (rest.length + 1))
  | '\x7b' :: rest, some item =>
    set rest
    return .table .braces (← membersUpTo item (rest.length + 1) [])
  | _, _ =>
    let (first, rest) := word t
    set rest
    match scalar? first with
    | none => failure
    | some value => return value

def valueWithin : Nat → Reader Value
  | 0 => valueOver none
  | depth + 1 => valueOver (some (valueWithin depth))

structure Draft where
  members : Members := []
  path : List Text := []

def statement (draft : Draft) : Reader Draft := do
  if ← accept "[[".toList then
    let (path, name) ← dottedKey
    expect "]]".toList
    endLine
    match Members.editAt false (Members.openItem name) path .header draft.members with
    | none => failure
    | some members => return ⟨members, path ++ [name]⟩
  else if ← accept ['['] then
    let (path, name) ← dottedKey
    expect [']']
    endLine
    match Members.editAt false (Members.openTable name) path .header draft.members with
    | none => failure
    | some members => return ⟨members, path ++ [name]⟩
  else
    let (path, name, value) ← pair skipGap (valueWithin depthLimit)
    endLine
    match Members.editAt false (Members.addDotted path name value) draft.path .header draft.members with
    | none => failure
    | some members => return { draft with members := members }

def statementsUpTo : Nat → Draft → Reader Members
  | 0, _ => failure
  | limit + 1, draft => do
    skipLines
    if (← get).isEmpty then return draft.members
    else statementsUpTo limit (← statement draft)

def parse? (document : Text) : Option Members :=
  let text := (afterLead? ['\ufeff'] document).getD document
  (statementsUpTo (text.length + 1) {}).run' text

end DocPress.Toml
