import DocPress.Proofs.Document.TableBlock
import Mathlib.Tactic.MkIffOfInductiveProp

/-!
# Documents as they are written

An entry is a block that an author writes, with an anchor above it or without. `written` prints entries, each with a
blank line below it, and `Entry.elements` says what they stand for. A document is sound (`IsSound`) where no line of it
can be taken for something else. The lemmas here say what each kind of line is to a reader.
-/

namespace DocPress.Document
open Text Markup Heading

inductive TableKey where
  | widths
  | header
deriving DecidableEq, Repr

def TableKey.name : TableKey → Text
  | widths => "widths".toList
  | header => "header".toList

structure TableOption where
  key : TableKey
  value : Text
deriving DecidableEq, Repr

structure TableSource where
  title : Option Text := none
  options : List TableOption := []
  rows : List (List Text)
  footnotes : List Footnote := []
deriving DecidableEq, Repr

inductive Body where
  | header (overlined : Bool) (title underline : Text)
  | paragraph (lines : List Text)
  | table (source : TableSource)
  | figure (path caption : Option Text)
deriving DecidableEq, Repr

structure Entry where
  anchor : Option Text := none
  body : Body
deriving DecidableEq, Repr

/-! ## What is written -/

def labelLine (anchor : Text) : Text :=
  ".. _".toList ++ anchor ++ [':']

def directiveLine (name : Text) (argument : Option Text) : Text :=
  ".. ".toList ++ name ++ "::".toList ++ argument.elim [] (' ' :: ·)

def TableOption.line (option : TableOption) : Text :=
  "   :".toList ++ option.key.name ++ ": ".toList ++ option.value

def quoted (field : Text) : Text :=
  '"' :: (field ++ ['"'])

def rowLine (row : List Text) : Text :=
  "   ".toList ++ joinWith [','] (row.map quoted)

def Footnote.line (footnote : Footnote) : Text :=
  ".. [".toList ++ footnote.tag ++ "] ".toList ++ footnote.text

def TableSource.noteLines (source : TableSource) : List Text :=
  if source.footnotes.isEmpty then [] else [] :: source.footnotes.map Footnote.line

def TableSource.lines (source : TableSource) : List Text :=
  directiveLine "csv-table".toList source.title ::
    (source.options.map TableOption.line ++ [] :: (source.rows.map rowLine ++ source.noteLines))

def Body.lines : Body → List Text
  | .header overlined title underline => (if overlined then [underline] else []) ++ [title, underline]
  | .paragraph lines => lines
  | .table source => source.lines
  | .figure path caption =>
    directiveLine "figure".toList path :: [] :: caption.toList.map ("   ".toList ++ ·)

def Entry.lines (entry : Entry) : List Text :=
  entry.anchor.toList.flatMap (fun anchor => [labelLine anchor, []]) ++ entry.body.lines ++ [[]]

def written (entries : List Entry) : List Text :=
  entries.flatMap Entry.lines

/-! ## What it stands for -/

def TableSource.value? (source : TableSource) (key : TableKey) : Option Text :=
  (source.options.filter fun option => option.key = key).getLast?.map TableOption.value

def TableSource.table (source : TableSource) (anchor : Option Text) : Table where
  title := source.title
  widths := source.value? .widths
  header := source.value? .header
  rows := source.rows
  footnotes := source.footnotes
  anchor := anchor

def Entry.elements (entry : Entry) : List Element :=
  match entry.body with
  | .header overlined title underline =>
    .header (if overlined then some underline else none) title underline :: entry.anchor.toList.map .label
  | .paragraph lines => .paragraph lines :: entry.anchor.toList.map .label
  | .table source => [.table (source.table entry.anchor)]
  | .figure path caption => [.figure ⟨path, caption.getD [], entry.anchor⟩]

/-! ## Sound documents -/

@[mk_iff]
structure IsTrimmed (t : Text) : Prop where
  trim : trim t = t
  filled : t ≠ []

instance (t : Text) : Decidable (IsTrimmed t) :=
  decidable_of_iff' _ (isTrimmed_iff t)

@[mk_iff]
structure IsTitle (line : Text) : Prop where
  trimmed : trimEnd line = line
  filled : isBlank line = false
  plain : anchor? line = none

instance (line : Text) : Decidable (IsTitle line) :=
  decidable_of_iff' _ (isTitle_iff line)

def startsBlock (line : Text) : Bool :=
  startsWith ".. csv-table::".toList line || startsWith ".. figure::".toList line

@[mk_iff]
structure IsParagraph (lines : List Text) : Prop where
  some : lines ≠ []
  isTitle : ∀ line ∈ lines, IsTitle line
  plain : ∀ line ∈ lines, startsBlock line = false
  flat : ∀ line ∈ lines.tail, isUnderline line = false

instance (lines : List Text) : Decidable (IsParagraph lines) :=
  decidable_of_iff' _ (isParagraph_iff lines)

@[mk_iff]
structure IsHeader (overlined : Bool) (title underline : Text) : Prop where
  isTitle : IsTitle title
  trimmed : trimEnd underline = underline
  underlines : isUnderline underline = true
  apart : overlined = true → isUnderline title = false

instance (overlined : Bool) (title underline : Text) : Decidable (IsHeader overlined title underline) :=
  decidable_of_iff' _ (isHeader_iff overlined title underline)

@[mk_iff]
structure TableSource.IsSound (source : TableSource) : Prop where
  title : ∀ value ∈ source.title, IsTrimmed value
  options : ∀ option ∈ source.options, IsTrimmed option.value
  rows : source.rows ≠ []
  row : ∀ row ∈ source.rows, row ≠ []
  field : ∀ row ∈ source.rows, ∀ field ∈ row, '"' ∉ field
  tag : ∀ note ∈ source.footnotes, note.tag.head? = some '#' ∧ note.tag.tail ≠ [] ∧ ']' ∉ note.tag
  text : ∀ note ∈ source.footnotes, trim note.text = note.text
  distinct : source.footnotes.Pairwise fun first second => first.tag ≠ second.tag

instance (source : TableSource) : Decidable source.IsSound :=
  decidable_of_iff' _ source.isSound_iff

@[mk_iff]
structure IsFigure (path caption : Option Text) : Prop where
  isPath : ∀ value ∈ path, IsTrimmed value
  isCaption : ∀ value ∈ caption, IsTrimmed value
  plain : ∀ value ∈ caption, option? value = none

instance (path caption : Option Text) : Decidable (IsFigure path caption) :=
  decidable_of_iff' _ (isFigure_iff path caption)

def Body.IsSound : Body → Prop
  | .header overlined title underline => IsHeader overlined title underline
  | .paragraph lines => IsParagraph lines
  | .table source => source.IsSound
  | .figure path caption => IsFigure path caption

instance : (body : Body) → Decidable body.IsSound
  | .header overlined title underline => inferInstanceAs (Decidable (IsHeader overlined title underline))
  | .paragraph lines => inferInstanceAs (Decidable (IsParagraph lines))
  | .table source => inferInstanceAs (Decidable source.IsSound)
  | .figure path caption => inferInstanceAs (Decidable (IsFigure path caption))

/-- Whether no line of a paragraph starts a list or one of the directives that are captured below a label. -/
def Body.isFree : Body → Bool
  | .paragraph lines => lines.all fun line => (capturedMember? true line).isNone
  | .header .. | .table _ | .figure .. => true

@[mk_iff]
structure Entry.IsSound (entry : Entry) : Prop where
  body : entry.body.IsSound
  anchor : ∀ anchor ∈ entry.anchor, IsTrimmed anchor
  free : entry.anchor.isSome = true → entry.body.isFree = true

instance (entry : Entry) : Decidable entry.IsSound :=
  decidable_of_iff' _ entry.isSound_iff

/-- Whether a block cannot go on with a line below the blank line that ends it. -/
def Body.endsAbove : Body → Text → Bool
  | .table _, line => !isFootnoteStart line
  | .figure .., line => !isBody line
  | .header .., _ | .paragraph _, _ => true

def Entry.EndsAbove (above below : Entry) : Prop :=
  below.anchor = none → ∀ line ∈ below.body.lines.head?, above.body.endsAbove line = true

instance : DecidableRel Entry.EndsAbove := fun above below =>
  inferInstanceAs (Decidable (below.anchor = none → ∀ line ∈ below.body.lines.head?, above.body.endsAbove line = true))

@[mk_iff]
structure IsSound (entries : List Entry) : Prop where
  entry : ∀ entry ∈ entries, entry.IsSound
  apart : entries.IsChain Entry.EndsAbove

instance (entries : List Entry) : Decidable (IsSound entries) :=
  decidable_of_iff' _ (isSound_iff entries)

/-! ## What the written lines are -/

theorem startsWith_append (lead t : Text) : startsWith lead (lead ++ t) = true := by
  rw [startsWith, afterLead?_eq_some_iff.mpr rfl]
  rfl

section
variable {t : Text}

theorem IsTrimmed.trimEnd (trimmed : IsTrimmed t) : Text.trimEnd t = t := by
  rw [← trimmed.trim, trimEnd_trim]

theorem IsTrimmed.isBlank (trimmed : IsTrimmed t) : isBlank t = false := by
  rw [Bool.eq_false_iff]
  intro blank
  rw [← trimEnd_eq_nil_iff, trimmed.trimEnd] at blank
  exact trimmed.filled blank

theorem trimEnd_labelLine (anchor : Text) : trimEnd (labelLine anchor) = labelLine anchor :=
  trimEnd_append_trimmed rfl (by simp) _

theorem anchor?_labelLine {anchor : Text} (some : anchor ≠ []) : anchor? (labelLine anchor) = Option.some anchor := by
  rw [anchor?, trimEnd_labelLine, labelLine, List.append_assoc, afterLead?_eq_some_iff.mpr rfl, Option.bind_some,
    beforeTail?_eq_some_iff.mpr rfl]
  exact Option.filter_eq_some_iff.mpr ⟨rfl, by simpa using some⟩

theorem trimEnd_directiveLine (name : Text) {argument : Option Text} (trimmed : ∀ value ∈ argument, IsTrimmed value) :
    trimEnd (directiveLine name argument) = directiveLine name argument := by
  cases argument with
  | none =>
    rw [directiveLine, Option.elim_none, List.append_nil]
    exact trimEnd_append_trimmed rfl (by simp) _
  | some value =>
    rw [directiveLine, Option.elim_some, ← List.singleton_append, ← List.append_assoc]
    exact trimEnd_append_trimmed (trimmed value rfl).trimEnd (trimmed value rfl).filled _

theorem TableSource.IsSound.exists_name {source : TableSource} (sound : source.IsSound) {footnote : Footnote}
    (member : footnote ∈ source.footnotes) : ∃ name, footnote.tag = '#' :: name ∧ name ≠ [] ∧ ']' ∉ name := by
  obtain ⟨lead, some, plain⟩ := sound.tag footnote member
  cases tag : footnote.tag with
  | nil => simp [tag] at lead
  | cons c name =>
    obtain rfl : c = '#' := by simpa [tag] using lead
    rw [tag, List.mem_cons, not_or] at plain
    exact ⟨name, rfl, by simpa [tag] using some, plain.2⟩

theorem isFilledBody_optionLine (option : TableOption) : isFilledBody option.line = true := by
  cases option with
  | mk key value => cases key <;> rfl

theorem isFilledBody_rowLine {row : List Text} (some : row ≠ []) : isFilledBody (rowLine row) = true := by
  match row, some with
  | [_], _ | _ :: _ :: _, _ => rfl

theorem isBody_caption (caption : Text) : isBody ("   ".toList ++ caption) = true :=
  rfl

theorem trimEnd_optionLine {option : TableOption} (trimmed : IsTrimmed option.value) :
    trimEnd option.line = option.line :=
  trimEnd_append_trimmed trimmed.trimEnd trimmed.filled _

end

end DocPress.Document
