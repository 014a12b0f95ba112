namespace DocPress

abbrev Text := List Char

namespace Text

def dropEndWhile {α : Type} (p : α → Bool) : List α → List α
  | [] => []
  | a :: rest =>
    match dropEndWhile p rest with
    | [] => if p a then [] else [a]
    | b :: kept => a :: b :: kept

def stripWhile (p : Char → Bool) (t : Text) : Text :=
  dropEndWhile p (t.dropWhile p)

def afterLead? : Text → Text → Option Text
  | [], t => some t
  | _ :: _, [] => none
  | c :: lead, d :: t => if c = d then afterLead? lead t else none

def beforeTail? (tail t : Text) : Option Text :=
  (afterLead? tail.reverse t.reverse).map List.reverse

def startsWith (lead t : Text) : Bool :=
  (afterLead? lead t).isSome

def joinWith (separator : Text) : List Text → Text
  | [] => []
  | [t] => t
  | t :: u :: rest => t ++ separator ++ joinWith separator (u :: rest)

def splitAt (separator : Char) : Text → List Text
  | [] => [[]]
  | c :: rest =>
    if c = separator then [] :: splitAt separator rest
    else
      match splitAt separator rest with
      | [] => [[c]]
      | piece :: pieces => (c :: piece) :: pieces

def ofNat (n : Nat) : Text :=
  Nat.toDigits 10 n

theorem afterLead?_eq_some_iff {lead t rest : Text} : afterLead? lead t = some rest ↔ t = lead ++ rest := by
  induction lead generalizing t with
  | nil => simp [afterLead?]
  | cons c lead ih =>
    cases t with
    | nil => simp [afterLead?]
    | cons d t =>
      by_cases h : c = d
      · simp [afterLead?, h, ih]
      · simp [afterLead?, h, Ne.symm h]

theorem beforeTail?_eq_some_iff {tail t rest : Text} : beforeTail? tail t = some rest ↔ t = rest ++ tail := by
  simp only [beforeTail?, Option.map_eq_some_iff, afterLead?_eq_some_iff]
  constructor
  · rintro ⟨u, h, rfl⟩
    simpa using congrArg List.reverse h
  · rintro rfl
    exact ⟨rest.reverse, by simp, by simp⟩

end Text

end DocPress

namespace DocPress.Text

def isSpace (c : Char) : Bool :=
  let n := c.toNat
  (0x09 ≤ n && n ≤ 0x0D) || n == 0x20 || n == 0x85 || n == 0xA0 || n == 0x1680 ||
    (0x2000 ≤ n && n ≤ 0x200A) || n == 0x2028 || n == 0x2029 || n == 0x202F || n == 0x205F || n == 0x3000

def trimStart (t : Text) : Text :=
  t.dropWhile isSpace

def trimEnd (t : Text) : Text :=
  dropEndWhile isSpace t

def trim (t : Text) : Text :=
  stripWhile isSpace t

def isBlank (t : Text) : Bool :=
  t.all isSpace

def isFilled (t : Text) : Bool :=
  !isBlank t

def indentation (line : Text) : Text :=
  line.takeWhile fun c => c == ' ' || c == '\t'

def lines : Text → List Text
  | [] => []
  | '\n' :: rest => [] :: lines rest
  | '\r' :: '\n' :: rest => [] :: lines rest
  | c :: rest =>
    match lines rest with
    | [] => [[c]]
    | line :: more => (c :: line) :: more

def occurs (needle : Text) : Text → Bool
  | [] => needle.isEmpty
  | c :: rest => startsWith needle (c :: rest) || occurs needle rest

def cut? (needle : Text) : Text → Option (Text × Text)
  | [] => (afterLead? needle []).map fun after => ([], after)
  | c :: rest =>
    match afterLead? needle (c :: rest) with
    | some after => some ([], after)
    | none => (cut? needle rest).map fun (before, after) => (c :: before, after)

/-- Replace from the left, where the next `skip` characters belong to an occurrence already replaced. -/
def replaceFrom (needle value : Text) : Nat → Text → Text
  | _, [] => []
  | skip + 1, _ :: rest => replaceFrom needle value skip rest
  | 0, c :: rest =>
    if startsWith needle (c :: rest) then value ++ replaceFrom needle value (needle.length - 1) rest
    else c :: replaceFrom needle value 0 rest

/-- `t` with every occurrence of `needle` replaced by `value`. The empty text occurs before each character and
at the end. -/
def replaceAll (needle value t : Text) : Text :=
  if needle.isEmpty then value ++ t.flatMap fun c => c :: value
  else replaceFrom needle value 0 t

theorem cut?_eq_some {needle t before after : Text} (h : cut? needle t = some (before, after)) :
    t = before ++ needle ++ after := by
  induction t generalizing before with
  | nil =>
    obtain ⟨_, found, pair⟩ := Option.map_eq_some_iff.mp h
    obtain ⟨rfl, rfl⟩ := Prod.mk.inj pair
    simpa using afterLead?_eq_some_iff.mp found
  | cons c rest ih =>
    rw [cut?] at h
    split at h
    · next found =>
      obtain ⟨rfl, rfl⟩ := Prod.mk.inj (Option.some.inj h)
      simpa using afterLead?_eq_some_iff.mp found
    · obtain ⟨pair, found, equal⟩ := Option.map_eq_some_iff.mp h
      obtain ⟨rfl, rfl⟩ := Prod.mk.inj equal
      simpa using ih found

def digit? (c : Char) : Option Nat :=
  if c.isDigit then some (c.toNat - '0'.toNat) else none

def digitsFrom? (value : Nat) : Text → Option Nat
  | [] => some value
  | c :: rest => (digit? c).bind fun d => digitsFrom? (10 * value + d) rest

/-- The number below `bound` that a numeral names: ASCII digits, at least one, after an optional `+`. -/
def natBelow? (bound : Nat) (t : Text) : Option Nat :=
  let digits := (afterLead? ['+'] t).getD t
  if digits.isEmpty then none else (digitsFrom? 0 digits).filter (· < bound)

end DocPress.Text

namespace DocPress

def twoTo (exponent : Nat) : Nat :=
  Nat.pow 2 exponent

def tenTo (exponent : Nat) : Nat :=
  Nat.pow 10 exponent

end DocPress
