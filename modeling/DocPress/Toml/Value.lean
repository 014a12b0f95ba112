import DocPress.Text.Basic

namespace DocPress.Toml

inductive Origin where
  | header
  | parent
  | dotted
  | braces
deriving DecidableEq, Repr

/-- A value. A whole number may be one by the form of its text and still name no number. Of a float only counts
whether it fits into 64 bits, and a date or time is kept as its text in full form. The arrays that double-bracket
headers build up are `growing`. -/
inductive Value where
  | text (t : Text)
  | integer (n : Option Int)
  | float (fits : Bool)
  | boolean (b : Bool)
  | moment (t : Text)
  | array (growing : Bool) (items : List Value)
  | table (origin : Origin) (members : List (Text × Value))

abbrev Members := List (Text × Value)

namespace Members

def find? (key : Text) : Members → Option Value
  | [] => none
  | (k, value) :: rest => if k = key then some value else find? key rest

def put (key : Text) (value : Value) : Members → Members
  | [] => [(key, value)]
  | (k, old) :: rest => if k = key then (k, value) :: rest else (k, old) :: put key value rest

/-- Edit the table at the end of a path. Tables on the way that do not exist are made. A table in braces is closed,
and a dotted path leads through no table that a header made. On the way through a growing array its last table
counts. -/
def editAt (dotted : Bool) (edit : Origin → Members → Option Members) :
    List Text → Origin → Members → Option Members
  | [], origin, members => edit origin members
  | key :: path, _, members =>
    match find? key members with
    | none =>
      let origin := if dotted then Origin.dotted else .parent
      (editAt dotted edit path origin []).map fun inner => put key (.table origin inner) members
    | some (.table origin inner) =>
      if origin = .braces || (dotted && origin = .header) then none
      else (editAt dotted edit path origin inner).map fun inner => put key (.table origin inner) members
    | some (.array true items) =>
      match items.getLast? with
      | some (.table origin inner) =>
        (editAt dotted edit path origin inner).map fun inner =>
          put key (.array true (items.dropLast ++ [.table origin inner])) members
      | _ => none
    | some _ => none

def addDotted (path : List Text) (key : Text) (value : Value) (origin : Origin) (members : Members) :
    Option Members :=
  editAt true (fun target inner =>
    if (target = .dotted) = path.isEmpty || (find? key inner).isSome then none else some (put key value inner))
    path origin members

def openTable (key : Text) (_ : Origin) (members : Members) : Option Members :=
  match find? key members with
  | none => some (put key (.table .header []) members)
  | some (.table .parent inner) => some (put key (.table .header inner) members)
  | some _ => none

def openItem (key : Text) (_ : Origin) (members : Members) : Option Members :=
  match find? key members with
  | none => some (put key (.array true [.table .header []]) members)
  | some (.array true items) => some (put key (.array true (items ++ [.table .header []])) members)
  | some _ => none

end Members

def momentKey : Text :=
  "$__toml_private_datetime".toList

def Value.members? : Value → Option Members
  | .table _ members => some members
  | .moment t => some [(momentKey, .text t)]
  | _ => none

end DocPress.Toml
