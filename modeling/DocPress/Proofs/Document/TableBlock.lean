import DocPress.Document.Element
import DocPress.Proofs.Document.Moves
import Mathlib.Data.List.Chain

/-!
# Tables are read as they are cut out

A table is cut out of its document by the indentation of its lines, and read by the blank lines between them. The two
agree exactly where the parts of the table are spaced as the reader expects (`tableBlock_read_iff`): one blank line above
the rows, one at least between rows and footnotes, and definitions only where the cutting sees them.
-/

namespace DocPress.Document
open Text Markup

/-! ## The parts of a table that is cut out -/

structure NoteBlock.IsCut (note : NoteBlock) : Prop where
  gap : ∀ line ∈ note.gap, isBlank line = true
  definition : isFootnoteStart note.definition = true
  continuation : ∀ line ∈ note.continuation, isFilledBody line = true
  apart : note.gap = [] → isFilledBody note.definition = false

structure TableBlock.IsCut (block : TableBlock) : Prop where
  options : ∀ line ∈ block.options, isFilledBody line = true
  gap : ∀ line ∈ block.gap, isBlank line = true
  rows : ∀ line ∈ block.rows, isFilledBody line = true
  gap_eq_nil_iff : block.gap = [] ↔ block.rows = []
  footnotes : ∀ note ∈ block.footnotes, note.IsCut

section
variable {line : Text} {lines : List Text}

theorem isFilled_of_isFilledBody (body : isFilledBody line = true) : isFilled line = true := by
  rw [isFilledBody, Bool.and_eq_true] at body
  exact body.1

theorem isFilled_of_isFootnoteStart (start : isFootnoteStart line = true) : isFilled line = true := by
  rw [isFilled, Bool.not_eq_true', Bool.eq_false_iff]
  intro blank
  have empty : trimStart line = [] := by
    rw [isBlank, List.all_eq_true] at blank
    rw [trimStart, List.dropWhile_eq_nil_iff]
    exact blank
  rw [isFootnoteStart, empty] at start
  cases start

theorem head?_dropWhile_of_mem {p : Text → Bool} (member : line ∈ (lines.dropWhile p).head?) : p line = false := by
  have first := List.head?_dropWhile_not p lines
  rw [Option.mem_def.mp member] at first
  exact first

theorem isCut_noteBlocks (apart : ∀ line ∈ lines.head?, isFilledBody line = false) :
    ∀ note ∈ (noteBlocks lines).1, note.IsCut := by
  fun_induction noteBlocks lines with
  | case1 | case3 => simp
  | case2 lines line after found start note rest ih =>
    intro other member
    rcases List.mem_cons.mp member with rfl | member
    · refine ⟨fun _ => List.mem_takeWhile_imp, start, fun _ => List.mem_takeWhile_imp, fun none => ?_⟩
      have whole := List.takeWhile_append_dropWhile (p := isBlank) (l := lines)
      rw [show lines.takeWhile isBlank = [] from none, found, List.nil_append] at whole
      exact apart line (by rw [← whole]; rfl)
    · exact ih (fun _ => head?_dropWhile_of_mem) other member

theorem isCut_tableBlock (directive : Text) (lines : List Text) : (tableBlock directive lines).1.IsCut := by
  have apart : ∀ line ∈ (if (((lines.dropWhile isFilledBody).dropWhile isBlank).takeWhile isFilledBody).isEmpty
      then lines.dropWhile isFilledBody
      else ((lines.dropWhile isFilledBody).dropWhile isBlank).dropWhile isFilledBody).head?,
      isFilledBody line = false := by
    split <;> exact fun _ => head?_dropWhile_of_mem
  refine ⟨fun _ => List.mem_takeWhile_imp, ?_, fun _ => List.mem_takeWhile_imp, ?_, isCut_noteBlocks apart⟩
  · simp only [tableBlock]
    split
    · simp
    · exact fun _ => List.mem_takeWhile_imp
  · simp only [tableBlock]
    split
    · next empty => simp [List.isEmpty_iff.mp empty]
    · next some =>
      rw [List.isEmpty_iff] at some
      simp only [some, iff_false]
      intro none
      have whole := List.takeWhile_append_dropWhile (p := isBlank) (l := lines.dropWhile isFilledBody)
      rw [none, List.nil_append] at whole
      rw [whole] at some
      cases below : lines.dropWhile isFilledBody with
      | nil => simp [below] at some
      | cons line after =>
        have other : isFilledBody line = false := by
          have first : line ∈ (lines.dropWhile isFilledBody).head? := by rw [below]; rfl
          exact head?_dropWhile_of_mem first
        simp [below, other] at some

end

/-! ## The definitions that are read -/

def isDefinition (line : Text) : Bool :=
  (footnote? line).isSome

def definitions : List Text → List (Text × List Text)
  | [] => []
  | line :: rest =>
    if isDefinition line then
      (line, rest.takeWhile Table.continuesNote) :: definitions (rest.dropWhile Table.continuesNote)
    else definitions rest
termination_by lines => lines.length
decreasing_by
  all_goals simp only [List.length_cons]
  · have : (rest.dropWhile Table.continuesNote).length ≤ rest.length := (List.dropWhile_suffix _).length_le
    omega
  · omega

def defined? (definition : Text × List Text) : Option Footnote :=
  (footnote? definition.1).map fun (tag, text) => ⟨tag, Table.footnoteText text definition.2⟩

def footnotesFrom (definitions : List (Text × List Text)) : List Footnote :=
  (definitions.filterMap defined?).foldl (fun known footnote => Table.define footnote known) []

section
variable {line : Text} {lines : List Text}

theorem footnote?_of_isBlank (blank : isBlank line = true) : footnote? line = none := by
  have empty : trim line = [] := by
    rw [← trim_trimEnd, trimEnd_eq_nil_iff.mpr blank]
    rfl
  rw [footnote?, empty]
  rfl

theorem noteLines_definitions (lines : List Text) :
    (Table.noteLines lines).filterMap Table.NoteLine.footnote? = (definitions lines).filterMap defined? := by
  fun_induction Table.noteLines lines with
  | case1 =>
    rw [definitions]
    rfl
  | case2 line rest blank ih =>
    rw [definitions, isDefinition, footnote?_of_isBlank blank, ih]
    rfl
  | case3 line rest _ none ih =>
    rw [definitions, isDefinition, none]
    exact ih
  | case4 line rest _ tag text found ih =>
    rw [definitions, isDefinition, found, if_pos Option.isSome_some, List.filterMap_cons, List.filterMap_cons, defined?, found, ih]
    rfl

theorem footnotes_parse (lines : List Text) (anchor : Option Text) :
    (Table.parse lines anchor).footnotes = footnotesFrom (definitions (Table.sections lines).notes) := by
  rw [footnotesFrom, ← noteLines_definitions]
  rfl

theorem definitions_of_none (none : ∀ line ∈ lines, isDefinition line = false) (rest : List Text) :
    definitions (lines ++ rest) = definitions rest := by
  induction lines with
  | nil => rfl
  | cons line lines ih =>
    rw [List.cons_append, definitions, if_neg (by simp [none line List.mem_cons_self])]
    exact ih fun other member => none other (List.mem_cons_of_mem _ member)

theorem definitions_fst (lines : List Text) : (definitions lines).map Prod.fst = lines.filter isDefinition := by
  fun_induction definitions lines with
  | case1 => rfl
  | case2 line rest found ih =>
    have plain : (rest.takeWhile Table.continuesNote).filter isDefinition = [] := by
      rw [List.filter_eq_nil_iff]
      intro other member
      have continues := List.mem_takeWhile_imp member
      simp_all [Table.continuesNote, isDefinition]
    conv_rhs => rw [← List.takeWhile_append_dropWhile (p := Table.continuesNote) (l := rest)]
    rw [List.map_cons, ih, List.filter_cons_of_pos found, List.filter_append, plain, List.nil_append]
  | case3 line rest other ih => rw [ih, List.filter_cons_of_neg other]

end

/-! ## Where cutting and reading agree -/

def NoteBlock.definition? (note : NoteBlock) : Option (Text × List Text) :=
  if isDefinition note.definition then some (note.definition, note.continuation) else none

namespace TableBlock

def definitions (block : TableBlock) : List (Text × List Text) :=
  block.footnotes.filterMap NoteBlock.definition?

def unparted (block : TableBlock) : List NoteBlock :=
  if block.rows.isEmpty then block.footnotes.takeWhile (·.gap.isEmpty) else []

def parted (block : TableBlock) : List NoteBlock :=
  if block.rows.isEmpty then block.footnotes.dropWhile (·.gap.isEmpty) else block.footnotes

/-- A table spaced as its reader expects: one blank line above the rows, and at least one above the definitions, or two
where they have no rows above them. -/
structure IsSpaced (block : TableBlock) : Prop where
  rows : block.rows ≠ [] → block.gap.length = 1
  notes : ∀ note ∈ block.parted.head?, if block.rows.isEmpty then 2 ≤ note.gap.length else note.gap ≠ []

/-- Definitions stand only where a footnote starts, and a line that starts like one goes on with no footnote. -/
structure IsDefinite (block : TableBlock) : Prop where
  unparted : ∀ note ∈ block.unparted, isDefinition note.definition = false
  continuation : ∀ note ∈ block.parted, ∀ line ∈ note.continuation, isDefinition line = false
  refused : block.parted.IsChain fun above below =>
    isDefinition above.definition = true → isDefinition below.definition = false → below.gap ≠ []

theorem footnotes_eq (block : TableBlock) : block.unparted ++ block.parted = block.footnotes := by
  rw [unparted, parted]
  split
  · exact List.takeWhile_append_dropWhile
  · rfl

end TableBlock

abbrev noteText (notes : List NoteBlock) : List Text :=
  notes.flatMap NoteBlock.lines

theorem takeWhile_eq_left_iff {p : Text → Bool} {lines rest : List Text} :
    (lines ++ rest).takeWhile p = lines ↔ (∀ line ∈ lines, p line = true) ∧ rest.takeWhile p = [] := by
  induction lines with
  | nil => simp
  | cons line lines ih => by_cases holds : p line = true <;> simp [holds, ih]

theorem isDefinition_of_isBlank {line : Text} (blank : isBlank line = true) : isDefinition line = false := by
  rw [isDefinition, footnote?_of_isBlank blank]
  rfl

section
variable {notes : List NoteBlock}

theorem takeWhile_noteText {p : Text → Bool} (filled : ∀ line, isBlank line = true → p line = false)
    (cut : ∀ note ∈ notes, note.IsCut) :
    (noteText notes).takeWhile p = [] ↔ ∀ note ∈ notes.head?, p note.definition = true → note.gap ≠ [] := by
  cases notes with
  | nil => simp
  | cons note notes =>
    rw [noteText, List.flatMap_cons, NoteBlock.lines]
    cases gap : note.gap with
    | nil => cases holds : p note.definition <;> simp [gap, holds]
    | cons blank more =>
      have stops : p blank = false := filled blank ((cut note List.mem_cons_self).gap blank (by simp [gap]))
      simp [gap, stops]

theorem definitions_noteText_cons {note : NoteBlock} (cut : note.IsCut) (notes : List NoteBlock) :
    definitions (noteText (note :: notes)) = definitions (note.definition :: (note.continuation ++ noteText notes)) := by
  rw [noteText, List.flatMap_cons, NoteBlock.lines, List.append_assoc, List.cons_append]
  exact definitions_of_none (fun line member => isDefinition_of_isBlank (cut.gap line member)) _

theorem definition_sublist (notes : List NoteBlock) : (notes.map NoteBlock.definition).Sublist (noteText notes) := by
  induction notes with
  | nil => exact List.Sublist.refl _
  | cons note notes ih =>
    have first : [note.definition].Sublist note.lines := List.singleton_sublist.mpr (by simp [NoteBlock.lines])
    exact first.append ih

theorem definition?_fst (notes : List NoteBlock) :
    (notes.filterMap NoteBlock.definition?).map Prod.fst = (notes.map NoteBlock.definition).filter isDefinition := by
  induction notes with
  | nil => rfl
  | cons note notes ih =>
    cases accepted : isDefinition note.definition <;> simp [NoteBlock.definition?, accepted, ih]

theorem outdented_noteText (cut : ∀ note ∈ notes, note.IsCut) :
    ((noteText notes).filter isDefinition).filter (fun line => !isFilledBody line) =
      ((notes.map NoteBlock.definition).filter isDefinition).filter fun line => !isFilledBody line := by
  induction notes with
  | nil => rfl
  | cons note notes ih =>
    obtain ⟨blank, _, body, _⟩ := cut note List.mem_cons_self
    have gap : note.gap.filter isDefinition = [] :=
      List.filter_eq_nil_iff.mpr fun line member => by simp [isDefinition_of_isBlank (blank line member)]
    have continuation : (note.continuation.filter isDefinition).filter (fun line => !isFilledBody line) = [] :=
      List.filter_eq_nil_iff.mpr fun line member => by simp [body line (List.mem_filter.mp member).1]
    rw [noteText, List.flatMap_cons, NoteBlock.lines, List.append_assoc, List.cons_append, List.filter_append, gap,
      List.nil_append, List.map_cons, ← List.singleton_append, ← List.singleton_append (l := notes.map _)]
    simp only [List.filter_append, continuation, List.nil_append]
    rw [ih fun other member => cut other (List.mem_cons_of_mem _ member)]

theorem continuesNote_iff {line : Text} (filled : isFilled line = true) :
    Table.continuesNote line = true ↔ isDefinition line = false := by
  rw [Table.continuesNote, filled, isDefinition, Bool.true_and]
  cases footnote? line <;> simp

theorem continuesNote_of_isBlank {line : Text} (blank : isBlank line = true) : Table.continuesNote line = false := by
  rw [Table.continuesNote, isFilled, blank]
  rfl

theorem takeWhile_continuation {note : NoteBlock} (cut_note : note.IsCut) (cut : ∀ note ∈ notes, note.IsCut) :
    (note.continuation ++ noteText notes).takeWhile Table.continuesNote = note.continuation ↔
      (∀ line ∈ note.continuation, isDefinition line = false) ∧
        ∀ below ∈ notes.head?, isDefinition below.definition = false → below.gap ≠ [] := by
  rw [takeWhile_eq_left_iff, takeWhile_noteText (fun _ => continuesNote_of_isBlank) cut]
  refine and_congr ?_ ?_
  · refine forall₂_congr fun line member => ?_
    exact continuesNote_iff (isFilled_of_isFilledBody (cut_note.continuation line member))
  · refine forall₂_congr fun below first => ?_
    have start := (cut below (List.mem_of_mem_head? first)).definition
    rw [continuesNote_iff (isFilled_of_isFootnoteStart start)]

theorem definitions_noteText_iff (cut : ∀ note ∈ notes, note.IsCut) :
    definitions (noteText notes) = notes.filterMap NoteBlock.definition? ↔
      (∀ note ∈ notes, ∀ line ∈ note.continuation, isDefinition line = false) ∧
        notes.IsChain fun above below =>
          isDefinition above.definition = true → isDefinition below.definition = false → below.gap ≠ [] := by
  induction notes with
  | nil => simp [definitions]
  | cons note notes ih =>
    have cut_notes : ∀ other ∈ notes, other.IsCut := fun other member => cut other (List.mem_cons_of_mem _ member)
    have reads := takeWhile_continuation (cut note List.mem_cons_self) cut_notes
    rw [definitions_noteText_cons (cut note List.mem_cons_self), definitions, List.isChain_cons, List.forall_mem_cons]
    cases accepted : isDefinition note.definition with
    | true =>
      have rest (same : (note.continuation ++ noteText notes).takeWhile Table.continuesNote = note.continuation) :
          (note.continuation ++ noteText notes).dropWhile Table.continuesNote = noteText notes := by
        have whole := List.takeWhile_append_dropWhile (p := Table.continuesNote) (l := note.continuation ++ noteText notes)
        rw [same] at whole
        exact List.append_cancel_left whole
      rw [if_pos rfl, List.filterMap_cons_some (by rw [NoteBlock.definition?, if_pos accepted]), List.cons.injEq,
        Prod.mk.injEq]
      constructor
      · rintro ⟨⟨-, same⟩, below⟩
        rw [rest same, ih cut_notes] at below
        obtain ⟨plain, spaced⟩ := reads.mp same
        exact ⟨⟨plain, below.1⟩, fun other first _ => spaced other first, below.2⟩
      · rintro ⟨⟨plain, inner⟩, spaced, chain⟩
        have same := reads.mpr ⟨plain, fun other first => spaced other first rfl⟩
        rw [rest same, ih cut_notes]
        exact ⟨⟨rfl, same⟩, inner, chain⟩
    | false =>
      rw [if_neg Bool.false_ne_true, List.filterMap_cons_none (by rw [NoteBlock.definition?, accepted]; rfl)]
      constructor
      · intro same
        -- A definition among the lines below a refused one would be one too many.
        have plain : ∀ line ∈ note.continuation, isDefinition line = false := by
          have firsts := congrArg (fun read => (read.map Prod.fst).length) same
          simp only [definitions_fst, definition?_fst, List.filter_append, List.length_append] at firsts
          have fewer := ((definition_sublist notes).filter isDefinition).length_le
          have none : note.continuation.filter isDefinition = [] := List.length_eq_zero_iff.mp (by omega)
          rw [List.filter_eq_nil_iff] at none
          exact fun line member => Bool.eq_false_iff.mpr (none line member)
        rw [definitions_of_none plain, ih cut_notes] at same
        exact ⟨⟨plain, same.1⟩, fun _ _ => by rintro ⟨⟩, same.2⟩
      · rintro ⟨⟨plain, inner⟩, -, chain⟩
        rw [definitions_of_none plain, ih cut_notes]
        exact ⟨inner, chain⟩

end

theorem sections_of_split {directive : Text} {top below : List Text} (filled : ∀ line ∈ top, isFilled line = true)
    (blank : ∀ line ∈ below.head?, isBlank line = true) : Table.sections (directive :: (top ++ below)) =
      ⟨some directive, top, (below.drop 1).takeWhile isFilled, (below.drop 1).dropWhile isFilled⟩ := by
  have stops : below.takeWhile isFilled = [] ∧ below.dropWhile isFilled = below := by
    cases below with
    | nil => exact ⟨rfl, rfl⟩
    | cons line below => simp [isFilled, blank line rfl]
  simp only [Table.sections, List.head?_cons, List.drop_succ_cons, List.drop_zero,
    List.takeWhile_append_of_pos filled, List.dropWhile_append_of_pos filled, stops, List.append_nil]

namespace TableBlock
variable {block : TableBlock}

def top (block : TableBlock) : List Text :=
  block.options ++ noteText block.unparted

def below (block : TableBlock) : List Text :=
  block.gap ++ block.rows ++ noteText block.parted

theorem lines_eq (cut : block.IsCut) : block.lines = block.directive :: (block.top ++ block.below) := by
  rw [lines, top, below, ← block.footnotes_eq, List.flatMap_append]
  by_cases none : block.rows = []
  · simp [cut.gap_eq_nil_iff.mpr none, none]
  · simp [unparted, none]

theorem isCut_unparted (cut : block.IsCut) : ∀ note ∈ block.unparted, note.IsCut ∧ note.gap = [] := by
  intro note member
  refine ⟨cut.footnotes note (by rw [← block.footnotes_eq]; exact List.mem_append_left _ member), ?_⟩
  rw [unparted] at member
  split at member
  · simpa using List.mem_takeWhile_imp member
  · cases member

theorem isCut_parted (cut : block.IsCut) : ∀ note ∈ block.parted, note.IsCut := by
  intro note member
  exact cut.footnotes note (by rw [← block.footnotes_eq]; exact List.mem_append_right _ member)

theorem isFilled_of_mem_top (cut : block.IsCut) : ∀ line ∈ block.top, isFilled line = true := by
  intro line member
  rcases List.mem_append.mp member with member | member
  · exact isFilled_of_isFilledBody (cut.options line member)
  · obtain ⟨note, unparted, inside⟩ := List.mem_flatMap.mp member
    obtain ⟨cut_note, flush⟩ := isCut_unparted cut note unparted
    rw [NoteBlock.lines, flush, List.nil_append] at inside
    rcases List.mem_cons.mp inside with rfl | inside
    · exact isFilled_of_isFootnoteStart cut_note.definition
    · exact isFilled_of_isFilledBody (cut_note.continuation line inside)

theorem gap_of_head_parted (none : block.rows = []) : ∀ note ∈ block.parted.head?, note.gap ≠ [] := by
  intro note first
  rw [parted, if_pos (List.isEmpty_iff.mpr none)] at first
  have stops := List.head?_dropWhile_not (fun note : NoteBlock => note.gap.isEmpty) block.footnotes
  rw [Option.mem_def.mp first] at stops
  simpa using stops

theorem takeWhile_isFilled_parted (cut : block.IsCut) :
    (noteText block.parted).takeWhile isFilled = [] ↔ ∀ note ∈ block.parted.head?, note.gap ≠ [] := by
  rw [takeWhile_noteText (fun line blank => by simp [isFilled, blank]) (isCut_parted cut)]
  refine forall₂_congr fun note first => ?_
  have start := (isCut_parted cut note (List.mem_of_mem_head? first)).definition
  simp [isFilled_of_isFootnoteStart start]

theorem isBlank_of_head_below (cut : block.IsCut) : ∀ line ∈ block.below.head?, isBlank line = true := by
  intro line first
  rw [below] at first
  cases gap : block.gap with
  | cons blank more =>
    obtain rfl : blank = line := by simpa [gap] using first
    exact cut.gap blank (by simp [gap])
  | nil =>
    have none := cut.gap_eq_nil_iff.mp gap
    rw [gap, none] at first
    have flush := (takeWhile_isFilled_parted cut).mpr (gap_of_head_parted none)
    rw [Option.mem_def, List.nil_append, List.nil_append] at first
    cases text : noteText block.parted with
    | nil => simp [text] at first
    | cons top more =>
      obtain rfl : top = line := by simpa [text] using first
      simpa [text, isFilled] using flush

theorem sections_lines (cut : block.IsCut) : Table.sections block.lines =
    ⟨some block.directive, block.top, (block.below.drop 1).takeWhile isFilled,
      (block.below.drop 1).dropWhile isFilled⟩ := by
  rw [lines_eq cut, sections_of_split (isFilled_of_mem_top cut) (isBlank_of_head_below cut)]

theorem isSpaced_of_length (cut : block.IsCut)
    (same : (Table.sections block.lines).rows.length = block.rows.length) : block.IsSpaced := by
  -- A wrong spacing shows in the number of rows: a second blank line ends them, and a definition without one joins them.
  rw [sections_lines cut, below] at same
  by_cases none : block.rows = []
  · refine ⟨fun some => absurd none some, fun note first => ?_⟩
    rw [if_pos (List.isEmpty_iff.mpr none)]
    obtain ⟨more, parted⟩ := List.head?_eq_some_iff.mp first
    have cut_note := isCut_parted cut note (List.mem_of_mem_head? first)
    cases gap : note.gap with
    | nil => exact absurd gap (gap_of_head_parted none note first)
    | cons blank gaps =>
      cases gaps with
      | cons => simp
      | nil =>
        rw [cut.gap_eq_nil_iff.mpr none, none, parted] at same
        simp [NoteBlock.lines, gap, isFilled_of_isFootnoteStart cut_note.definition] at same
  · cases gap : block.gap with
    | nil => exact absurd (cut.gap_eq_nil_iff.mp gap) none
    | cons blank gaps =>
      cases gaps with
      | nil =>
        refine ⟨fun _ => by rw [gap]; rfl, fun note first => ?_⟩
        have filled : ∀ line ∈ block.rows, isFilled line = true :=
          fun line member => isFilled_of_isFilledBody (cut.rows line member)
        rw [gap, List.cons_append, List.nil_append, List.cons_append, List.drop_succ_cons, List.drop_zero,
          List.takeWhile_append_of_pos filled, List.length_append] at same
        rw [if_neg (by simpa using none)]
        exact (takeWhile_isFilled_parted cut).mp (List.length_eq_zero_iff.mp (by omega)) note first
      | cons other gaps =>
        have stops : isFilled other = false := by
          rw [isFilled, cut.gap other (by simp [gap])]
          rfl
        simp [gap, stops, none, eq_comm] at same

theorem below_of_rows (cut : block.IsCut) (single : block.gap.length = 1)
    (apart : ∀ note ∈ block.parted.head?, note.gap ≠ []) :
    (block.below.drop 1).takeWhile isFilled = block.rows ∧
      (block.below.drop 1).dropWhile isFilled = noteText block.parted := by
  have filled : ∀ line ∈ block.rows, isFilled line = true :=
    fun line member => isFilled_of_isFilledBody (cut.rows line member)
  obtain ⟨blank, gap⟩ := List.length_eq_one_iff.mp single
  have flush := (takeWhile_isFilled_parted cut).mpr apart
  have whole := List.takeWhile_append_dropWhile (p := isFilled) (l := noteText block.parted)
  rw [flush, List.nil_append] at whole
  rw [below, gap, List.cons_append, List.nil_append, List.cons_append, List.drop_succ_cons, List.drop_zero,
    List.takeWhile_append_of_pos filled, List.dropWhile_append_of_pos filled, flush, whole, List.append_nil]
  exact ⟨rfl, rfl⟩

theorem below_of_rowless (cut : block.IsCut) (none : block.rows = [])
    (wide : ∀ note ∈ block.parted.head?, 2 ≤ note.gap.length) : (block.below.drop 1).takeWhile isFilled = [] ∧
      Document.definitions ((block.below.drop 1).dropWhile isFilled) = Document.definitions (noteText block.parted) := by
  rw [below, cut.gap_eq_nil_iff.mpr none, none, List.nil_append, List.nil_append]
  cases parted : block.parted with
  | nil => exact ⟨rfl, rfl⟩
  | cons note more =>
    have two := wide note (by rw [parted]; rfl)
    have blank := (isCut_parted cut note (by rw [parted]; exact List.mem_cons_self)).gap
    rw [noteText, List.flatMap_cons, NoteBlock.lines]
    cases gap : note.gap with
    | nil => simp [gap] at two
    | cons first gaps =>
      cases gaps with
      | nil => simp [gap] at two
      | cons second gaps =>
        have above := isDefinition_of_isBlank (blank first (by simp [gap]))
        have stops : isFilled second = false := by
          rw [isFilled, blank second (by simp [gap])]
          rfl
        simp only [List.cons_append, List.drop_succ_cons, List.drop_zero]
        rw [List.takeWhile_cons_of_neg (by simp [stops]), List.dropWhile_cons_of_neg (by simp [stops]),
          Document.definitions.eq_2 first, if_neg (by simp [above])]
        exact ⟨rfl, rfl⟩

theorem IsSpaced.read (spaced : block.IsSpaced) (cut : block.IsCut) :
    (Table.sections block.lines).rows = block.rows ∧
      Document.definitions (Table.sections block.lines).notes = Document.definitions (noteText block.parted) := by
  rw [sections_lines cut]
  by_cases none : block.rows = []
  · obtain ⟨rows, notes⟩ := below_of_rowless cut none fun note first => by simpa [none] using spaced.notes note first
    exact ⟨rows.trans none.symm, notes⟩
  · obtain ⟨rows, notes⟩ := below_of_rows cut (spaced.rows none) fun note first => by
      simpa [none] using spaced.notes note first
    exact ⟨rows, congrArg Document.definitions notes⟩

theorem definitions_eq_iff (cut : block.IsCut) :
    Document.definitions (noteText block.parted) = block.definitions ↔ block.IsDefinite := by
  have read := definitions_noteText_iff (isCut_parted cut)
  rw [definitions, ← block.footnotes_eq, List.filterMap_append]
  have silent (none : ∀ note ∈ block.unparted, isDefinition note.definition = false) :
      block.unparted.filterMap NoteBlock.definition? = [] := by
    rw [List.filterMap_eq_nil_iff]
    intro note member
    rw [NoteBlock.definition?, none note member]
    rfl
  constructor
  · intro same
    have none : ∀ note ∈ block.unparted, isDefinition note.definition = false := by
      -- Outside the indentation only the lines found as definitions can be some, and these stand below a blank line.
      have outside := congrArg (fun read => (read.map Prod.fst).filter fun line => !isFilledBody line) same
      simp only [definitions_fst, List.map_append, List.filter_append, definition?_fst,
        outdented_noteText (isCut_parted cut), List.self_eq_append_left, List.filter_filter, List.filter_eq_nil_iff,
        List.forall_mem_map] at outside
      intro note member
      obtain ⟨cut_note, flush⟩ := isCut_unparted cut note member
      simpa [cut_note.apart flush] using outside note member
    rw [silent none, List.nil_append, read] at same
    exact ⟨none, same.1, same.2⟩
  · rintro ⟨none, continuation, refused⟩
    rw [silent none, List.nil_append, read]
    exact ⟨continuation, refused⟩

end TableBlock

/-- The rows and the footnotes that are read are those that are cut out, line by line, exactly where the table is spaced
and holds no stray definition. -/
theorem tableBlock_read_iff (directive : Text) (rest : List Text) (anchor : Option Text) :
    ((Table.parse (tableBlock directive rest).1.lines anchor).rows =
        (tableBlock directive rest).1.rows.map (fun line => fields (trim line)) ∧
      definitions (Table.sections (tableBlock directive rest).1.lines).notes = (tableBlock directive rest).1.definitions ∧
      (Table.parse (tableBlock directive rest).1.lines anchor).footnotes =
        footnotesFrom (tableBlock directive rest).1.definitions) ↔
      (tableBlock directive rest).1.IsSpaced ∧ (tableBlock directive rest).1.IsDefinite := by
  have cut := isCut_tableBlock directive rest
  generalize (tableBlock directive rest).1 = block at cut ⊢
  rw [footnotes_parse]
  constructor
  · rintro ⟨rows, same, -⟩
    have read : (Table.sections block.lines).rows.map (fun line => fields (trim line)) =
        block.rows.map fun line => fields (trim line) := rows
    have counted := congrArg List.length read
    rw [List.length_map, List.length_map] at counted
    have spaced := TableBlock.isSpaced_of_length cut counted
    rw [(spaced.read cut).2, TableBlock.definitions_eq_iff cut] at same
    exact ⟨spaced, same⟩
  · rintro ⟨spaced, definite⟩
    obtain ⟨rows, notes⟩ := spaced.read cut
    have same := notes.trans ((TableBlock.definitions_eq_iff cut).mpr definite)
    exact ⟨congrArg (List.map fun line => fields (trim line)) rows, same, congrArg footnotesFrom same⟩

theorem rows_lost_below_two_blanks :
    let directive := ".. csv-table:: T".toList
    let rest := [[], [], "   a,b".toList]
    (tableBlock directive rest).1.lines = directive :: rest ∧
      (tableBlock directive rest).1.rows.map (fun line => fields (trim line)) = [["a".toList, "b".toList]] ∧
      (Table.parse (tableBlock directive rest).1.lines none).rows = [] := by
  decide +kernel

end DocPress.Document
