import DocPress.Contents
import DocPress.Latex.Command
import DocPress.Toml.Document

namespace DocPress
open Text

structure Settings where
  contentsTitles : List Text := Contents.defaultTitles
  placeholders : List (Text × Text) := []
  table : Latex.TableStyle := {}
  figure : Latex.FigureStyle := {}
deriving DecidableEq, Repr

inductive SettingsError where
  | malformed
  | columnUnitsZero
deriving DecidableEq, Repr

namespace SettingsError

def message : SettingsError → Text
  | malformed => "TOML parse error: ".toList
  | columnUnitsZero =>
    "Invalid configuration value: table.column_units must be greater than zero".toList

end SettingsError

namespace Settings
open Toml

/-- Whether all numbers in a value fit: whole numbers into 128 bits with or without sign, floats into 64. -/
def isBounded : Value → Bool
  | .integer none => false
  | .integer (some n) => -(twoTo 127) ≤ n && n < twoTo 128
  | .float fits => fits
  | .array _ items => items.attach.all fun ⟨item, _⟩ => isBounded item
  | .table _ members => members.attach.all fun ⟨(_, value), _⟩ => isBounded value
  | .text _ | .boolean _ | .moment _ => true
termination_by value => sizeOf value
decreasing_by
  · simp_wf
    have := List.sizeOf_lt_of_mem ‹_›
    omega
  · simp_wf
    have := List.sizeOf_lt_of_mem ‹_›
    simp at this
    omega

def text? : Value → Option Text
  | .text t => some t
  | _ => none

def texts? : Value → Option (List Text)
  | .array _ items => items.mapM text?
  | _ => none

def word? : Value → Option Nat
  | .integer (some n) => if 0 ≤ n && n < twoTo 32 then some n.toNat else none
  | _ => none

def insertSorted (entry : Text × Text) : List (Text × Text) → List (Text × Text)
  | [] => [entry]
  | other :: rest => if entry.1 ≤ other.1 then entry :: other :: rest else other :: insertSorted entry rest

def namedText? (member : Text × Value) : Option (Text × Text) :=
  (text? member.2).map fun t => (member.1, t)

def sortedTexts? (value : Value) : Option (List (Text × Text)) := do
  let entries ← (← value.members?).mapM namedText?
  return entries.foldr insertSorted []

/-- The members of a section by the names of its fields. An array gives its fields in order, and what stands behind
the last of them is not looked at. -/
def sectionMembers? (fields : List Text) : Value → Option Members
  | .array _ items => some (fields.zip items)
  | value => value.members?

def fieldOr {α : Type} (members : Members) (name : String) (default : α) (read : Value → Option α) : Option α :=
  match members.find? name.toList with
  | none => some default
  | some value => read value

def othersBounded (fields : List Text) (members : Members) : Bool :=
  members.all fun (key, value) => fields.contains key || isBounded value

def tableStyle? (value : Value) : Option Latex.TableStyle := do
  let fields := ["column_units".toList, "even_row_color".toList, "odd_row_color".toList, "header_color".toList]
  let members ← sectionMembers? fields value
  guard (othersBounded fields members)
  let standard : Latex.TableStyle := {}
  return {
    columnUnits := ← fieldOr members "column_units" standard.columnUnits word?
    evenRowColor := ← fieldOr members "even_row_color" standard.evenRowColor text?
    oddRowColor := ← fieldOr members "odd_row_color" standard.oddRowColor text?
    headerColor := ← fieldOr members "header_color" standard.headerColor text? }

def figureStyle? (value : Value) : Option Latex.FigureStyle := do
  let fields := ["width".toList]
  let members ← sectionMembers? fields value
  guard (othersBounded fields members)
  let standard : Latex.FigureStyle := {}
  return { width := ← fieldOr members "width" standard.width text? }

def ofMembers? (members : Members) : Option Settings := do
  let fields := ["toc_headers".toList, "placeholders".toList, "table".toList, "figure".toList]
  guard (othersBounded fields members)
  let standard : Settings := {}
  return {
    contentsTitles := ← fieldOr members "toc_headers" standard.contentsTitles texts?
    placeholders := ← fieldOr members "placeholders" standard.placeholders sortedTexts?
    table := ← fieldOr members "table" standard.table tableStyle?
    figure := ← fieldOr members "figure" standard.figure figureStyle? }

def parse (document : Text) : Except SettingsError Settings :=
  match (Toml.parse? document).bind ofMembers? with
  | none => .error .malformed
  | some settings => if settings.table.columnUnits = 0 then .error .columnUnitsZero else .ok settings

end Settings
end DocPress
