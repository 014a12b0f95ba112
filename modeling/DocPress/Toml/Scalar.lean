import DocPress.Toml.Quoted
import DocPress.Toml.Value

namespace DocPress.Toml
open Text

def digits? (isDigit : Char → Bool) (t : Text) : Option Text :=
  let groups := splitAt '_' t
  if groups.all fun group => !group.isEmpty && group.all isDigit then some groups.flatten else none

def valueOf (base : Nat) (digits : Text) : Nat :=
  digits.foldl (fun value c => base * value + (hexDigit? c).getD 0) 0

def signed (t : Text) : Bool × Text :=
  match t with
  | '-' :: rest => (true, rest)
  | '+' :: rest => (false, rest)
  | _ => (false, t)

def decimalValue? (t : Text) : Option Int :=
  let (negative, rest) := signed t
  (digits? Char.isDigit rest).map fun digits => if negative then -(valueOf 10 digits : Int) else valueOf 10 digits

def isSpaced (t : Text) : Bool :=
  let groups := splitAt '_' t
  let isDigit := fun c => (hexDigit? c).isSome
  groups.tail.all (fun group => group.head?.any isDigit) && groups.dropLast.all fun group => group.getLast?.any isDigit

def based? (base : Nat) (t : Text) : Option Value :=
  let digits := t.filter (· ≠ '_')
  if !isSpaced t || !digits.all fun c => (hexDigit? c).any (· < base) then none
  else some (.integer (if digits.isEmpty then none else some (valueOf base digits)))

def isExponentMark (c : Char) : Bool :=
  c = 'e' || c = 'E'

/-- A decimal whole number with an optional sign, which starts with a zero only if it is one. It names no number if
other characters than digits stand behind its first underscore. -/
def decimal? (t : Text) : Option Value :=
  let (_, numeral) := signed t
  let rest := numeral.dropWhile Char.isDigit
  let isFloat := rest.any fun c => c = '.' || isExponentMark c
  let hasForm := !isFloat && (rest.isEmpty || rest.head? == some '_') && isSpaced numeral
  if numeral = ['0'] || (numeral.head?.any (fun c => '1' ≤ c && c ≤ '9') && hasForm) then
    some (.integer (decimalValue? t))
  else none

def integer? (t : Text) : Option Value :=
  match t with
  | '0' :: 'x' :: rest => based? 16 rest
  | '0' :: 'o' :: rest => based? 8 rest
  | '0' :: 'b' :: rest => based? 2 rest
  | _ => decimal? t

def fitsFloat (mantissa : Nat) (exponent : Int) : Bool :=
  let bound := twoTo 1024 - twoTo 970
  let digits := (ofNat mantissa).length
  if mantissa = 0 || exponent + digits < 300 then true
  else if 400 < exponent + digits then false
  else mantissa * tenTo exponent.toNat < bound * tenTo (-exponent).toNat

def wholePart? (t : Text) : Option Text :=
  (digits? Char.isDigit t).filter fun digits => digits.length = 1 || digits.head? != some '0'

def float? (t : Text) : Option Bool :=
  let (_, rest) := signed t
  if rest = "inf".toList || rest = "nan".toList then some true
  else
    let mantissa := rest.takeWhile fun c => !isExponentMark c
    let exponent := (rest.dropWhile fun c => !isExponentMark c).drop 1
    let whole := mantissa.takeWhile (· ≠ '.')
    let fraction := (mantissa.dropWhile (· ≠ '.')).drop 1
    let hasExponent := rest.any isExponentMark
    let hasFraction := mantissa.contains '.'
    if !hasExponent && !hasFraction then none
    else do
      let whole ← wholePart? whole
      let fraction ← if hasFraction then digits? Char.isDigit fraction else some []
      let exponent ← if hasExponent then decimalValue? exponent else some 0
      return fitsFloat (valueOf 10 (whole ++ fraction)) (exponent - fraction.length)

def field? (count low high : Nat) (t : Text) : Option (Nat × Text) :=
  let digits := t.take count
  let value := valueOf 10 digits
  if digits.length = count && digits.all Char.isDigit && low ≤ value && value ≤ high then some (value, t.drop count)
  else none

def isLeap (year : Nat) : Bool :=
  (year % 4 = 0 && year % 100 ≠ 0) || year % 400 = 0

def daysOf (year month : Nat) : Nat :=
  if month = 2 then if isLeap year then 29 else 28
  else if month = 4 || month = 6 || month = 9 || month = 11 then 30
  else 31

def date? (t : Text) : Option Text := do
  let (year, t) ← field? 4 0 9999 t
  let (month, t) ← field? 2 1 12 (← afterLead? ['-'] t)
  let (_, t) ← field? 2 1 (daysOf year month) (← afterLead? ['-'] t)
  return t

/-- A time of day in full form and the text after it. Seconds that are missing are zero. Of their fraction nine digits
count, less the zeros at the end. -/
def time? (t : Text) : Option (Text × Text) := do
  let (_, rest) ← field? 2 0 23 t
  let (_, rest) ← field? 2 0 59 (← afterLead? [':'] rest)
  match rest with
  | ':' :: rest =>
    let (_, rest) ← field? 2 0 60 rest
    match rest with
    | '.' :: rest =>
      let digits := rest.takeWhile Char.isDigit
      let fraction := dropEndWhile (· == '0') (digits.take 9)
      if digits.isEmpty then none
      else return (t.take 8 ++ (if fraction.isEmpty then [] else '.' :: fraction), rest.dropWhile Char.isDigit)
    | _ => return (t.take 8, rest)
  | _ => return (t.take 5 ++ ":00".toList, rest)

def offset? (t : Text) : Option Text :=
  match t with
  | [] => some []
  | ['Z'] | ['z'] => some ['Z']
  | sign :: distance => do
    guard (sign = '+' || sign = '-')
    let (_, rest) ← field? 2 0 23 distance
    let (_, rest) ← field? 2 0 59 (← afterLead? [':'] rest)
    guard rest.isEmpty
    return (if distance = "00:00".toList then '+' else sign) :: distance

def moment? (t : Text) : Option Text :=
  match date? t with
  | none => (time? t).bind fun (time, rest) => if rest.isEmpty then some time else none
  | some [] => some t
  | some (separator :: rest) => do
    guard (separator = 'T' || separator = 't' || separator = ' ')
    let (time, rest) ← time? rest
    return t.take 10 ++ 'T' :: time ++ (← offset? rest)

def scalar? (t : Text) : Option Value :=
  if t = "true".toList then some (.boolean true)
  else if t = "false".toList then some (.boolean false)
  else (((moment? t).map Value.moment).or (integer? t)).or ((float? t).map Value.float)

def endsWord (c : Char) : Bool :=
  "=,[]\x7b\x7d \t#\r\n".toList.contains c

/-- The word at the start of a text, and what follows. A date goes on over one space if a digit comes after it. -/
def word (t : Text) : Text × Text :=
  let isInside := fun c => !endsWord c
  let first := t.takeWhile isInside
  match t.dropWhile isInside with
  | ' ' :: c :: rest =>
    if c.isDigit && date? first == some [] then
      (first ++ ' ' :: (c :: rest).takeWhile isInside, (c :: rest).dropWhile isInside)
    else (first, ' ' :: c :: rest)
  | rest => (first, rest)

end DocPress.Toml
