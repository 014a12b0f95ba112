import DocPress.Text.Basic

namespace DocPress.Toml
open Text

def isControl (c : Char) : Bool :=
  (c.toNat < 0x20 && c != '\t') || c.toNat == 0x7F

def hexDigit? (c : Char) : Option Nat :=
  if c.isDigit then some (c.toNat - '0'.toNat)
  else if 'a' ≤ c && c ≤ 'f' then some (c.toNat - 'a'.toNat + 10)
  else if 'A' ≤ c && c ≤ 'F' then some (c.toNat - 'A'.toNat + 10)
  else none

/-- Where the decoding of a basic string stands: in plain text; behind a backslash; inside the digits of a code, with
so many to come; behind a backslash and white space, where only a line end may follow; or behind such a line end,
where further white space is dropped. -/
inductive Mode where
  | plain
  | escape
  | code (left value : Nat)
  | lineEnd
  | dropping
deriving DecidableEq, Repr

def decodePlain (lines : Bool) (c : Char) (next : Option Char) : Option (Text × Mode) :=
  if c = '\\' then some ([], .escape)
  else if c = '\n' then if lines then some (['\n'], .plain) else none
  else if c = '\r' then if lines && next == some '\n' then some (['\r'], .plain) else none
  else if isControl c then none
  else some ([c], .plain)

def decodeEscape (lines : Bool) (c : Char) (next : Option Char) : Option (Text × Mode) :=
  match c with
  | 'b' => some (['\x08'], .plain)
  | 't' => some (['\t'], .plain)
  | 'n' => some (['\n'], .plain)
  | 'f' => some (['\x0c'], .plain)
  | 'r' => some (['\r'], .plain)
  | 'e' => some (['\x1b'], .plain)
  | '"' => some (['"'], .plain)
  | '\\' => some (['\\'], .plain)
  | 'x' => some ([], .code 2 0)
  | 'u' => some ([], .code 4 0)
  | 'U' => some ([], .code 8 0)
  | ' ' | '\t' => if lines then some ([], .lineEnd) else none
  | '\n' => if lines then some ([], .dropping) else none
  | '\r' => if lines && next == some '\n' then some ([], .lineEnd) else none
  | _ => none

def decodeChar (lines : Bool) (mode : Mode) (c : Char) (next : Option Char) : Option (Text × Mode) :=
  match mode with
  | .plain => decodePlain lines c next
  | .escape => decodeEscape lines c next
  | .code left value =>
    (hexDigit? c).bind fun d =>
      let value := 16 * value + d
      if 1 < left then some ([], .code (left - 1) value)
      else if value.isValidChar then some ([Char.ofNat value], .plain)
      else none
  | .lineEnd =>
    if c = ' ' || c = '\t' || (c = '\r' && next == some '\n') then some ([], .lineEnd)
    else if c = '\n' then some ([], .dropping)
    else none
  | .dropping =>
    if c = ' ' || c = '\t' || c = '\n' || (c = '\r' && next == some '\n') then some ([], .dropping)
    else decodePlain lines c next

def decodeBasic (lines : Bool) : Mode → Text → Option Text
  | .plain, [] | .dropping, [] => some []
  | _, [] => none
  | mode, c :: rest =>
    match decodeChar lines mode c rest.head? with
    | none => none
    | some (decoded, mode) => (decodeBasic lines mode rest).map (decoded ++ ·)

def decodeLiteral (lines : Bool) : Text → Option Text
  | [] => some []
  | c :: rest =>
    match decodePlain lines c rest.head? with
    | none => none
    | some _ => (decodeLiteral lines rest).map (c :: ·)

def inside? (quote : Char) (escapes : Bool) : Bool → Text → Option (Text × Text)
  | _, [] => none
  | true, c :: rest => (inside? quote escapes false rest).map fun (raw, after) => (c :: raw, after)
  | false, c :: rest =>
    if c = quote then some ([], rest)
    else (inside? quote escapes (escapes && c == '\\') rest).map fun (raw, after) => (c :: raw, after)

/-- The inside of a string up to its three closing quotes, and what follows. Up to two more quotes directly before
the closing ones belong to the string. -/
def insideLines? (quote : Char) (escapes : Bool) : Bool → Text → Option (Text × Text)
  | _, [] => none
  | true, c :: rest => (insideLines? quote escapes false rest).map fun (raw, after) => (c :: raw, after)
  | false, c :: rest =>
    if startsWith [quote, quote, quote] (c :: rest) then
      let after := rest.drop 2
      let extra := (after.takeWhile (· == quote)).take 2
      some (extra, after.drop extra.length)
    else (insideLines? quote escapes (escapes && c == '\\') rest).map fun (raw, after) => (c :: raw, after)

def dropLineEnd : Text → Text
  | '\n' :: rest => rest
  | '\r' :: '\n' :: rest => rest
  | t => t

def decode (quote : Char) (lines : Bool) (raw : Text) : Option Text :=
  if quote = '"' then decodeBasic lines .plain raw else decodeLiteral lines raw

def lineString? (quote : Char) (t : Text) : Option (Text × Text) := do
  let (raw, after) ← inside? quote (quote == '"') false t
  return (← decode quote false raw, after)

def string? (quote : Char) (t : Text) : Option (Text × Text) :=
  match afterLead? [quote, quote, quote] t with
  | none => (afterLead? [quote] t).bind (lineString? quote)
  | some rest => do
    let (raw, after) ← insideLines? quote (quote == '"') false (dropLineEnd rest)
    return (← decode quote true raw, after)

end DocPress.Toml
