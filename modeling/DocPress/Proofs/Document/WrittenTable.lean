import DocPress.Proofs.Document.WrittenRow
import DocPress.Proofs.Text.Search

namespace DocPress.Document
open Text Markup

def Footnote.shown (footnote : Footnote) : Text :=
  trimEnd footnote.line

def noteBlocksOf : List Footnote → List NoteBlock
  | [] => []
  | first :: more => ⟨[[]], first.shown, []⟩ :: more.map fun footnote => ⟨[], footnote.shown, []⟩

def TableSource.block (source : TableSource) : TableBlock where
  directive := directiveLine "csv-table".toList source.title
  options := source.options.map TableOption.line
  gap := [[]]
  rows := source.rows.map rowLine
  footnotes := noteBlocksOf source.footnotes

/-! ## The lines of a table -/

theorem exists_joined {row : List Text} (some : row ≠ []) :
    ∃ inner, joinWith [','] (row.map quoted) = '"' :: (inner ++ ['"']) := by
  induction row with
  | nil => exact absurd rfl some
  | cons field row ih =>
    cases row with
    | nil => exact ⟨field, rfl⟩
    | cons next more =>
      obtain ⟨inner, same⟩ := ih (by simp)
      refine ⟨field ++ "\",\"".toList ++ inner, ?_⟩
      rw [List.map_cons, List.map_cons, joinWith, ← List.map_cons, same]
      simp [quoted]

theorem trimEnd_rowLine {row : List Text} (some : row ≠ []) : trimEnd (rowLine row) = rowLine row := by
  obtain ⟨inner, same⟩ := exists_joined some
  rw [rowLine, same, trimEnd_append_cons rfl, trimEnd_append_trimmed rfl (by simp)]

theorem noteText_noteBlocksOf (footnotes : List Footnote) : noteText (noteBlocksOf footnotes) =
    if footnotes.isEmpty then [] else [] :: footnotes.map Footnote.shown := by
  cases footnotes with
  | nil => rfl
  | cons first more => simp [noteText, noteBlocksOf, NoteBlock.lines, List.flatMap_map, ← List.map_eq_flatMap]

theorem TableSource.map_trimEnd_lines {source : TableSource} (sound : source.IsSound) :
    source.lines.map trimEnd = source.block.lines := by
  have options : source.options.map (trimEnd ∘ TableOption.line) = source.options.map TableOption.line :=
    List.map_congr_left fun option member => trimEnd_optionLine (sound.options option member)
  have rows : source.rows.map (trimEnd ∘ rowLine) = source.rows.map rowLine :=
    List.map_congr_left fun row member => trimEnd_rowLine (sound.row row member)
  have notes : source.noteLines.map trimEnd = noteText (noteBlocksOf source.footnotes) := by
    rw [noteText_noteBlocksOf, noteLines]
    split
    · rfl
    · rw [List.map_cons, List.map_map]
      rfl
  rw [TableSource.lines, List.map_cons, trimEnd_directiveLine _ sound.title, List.map_append, List.map_map, options,
    List.map_cons, List.map_append, List.map_map, rows, notes]
  simp [TableBlock.lines, block]

/-! ## A table ends where it is written to end -/

section
variable {rest : List Text}

theorem takeWhile_append_blank {p : Text → Bool} {lines : List Text} (holds : ∀ line ∈ lines, p line = true)
    (stops : p [] = false) (rest : List Text) :
    (lines ++ [] :: rest).takeWhile p = lines ∧ (lines ++ [] :: rest).dropWhile p = [] :: rest := by
  rw [List.takeWhile_append_of_pos holds, List.dropWhile_append_of_pos holds,
    List.takeWhile_cons_of_neg (by simp [stops]), List.dropWhile_cons_of_neg (by simp [stops]), List.append_nil]
  exact ⟨rfl, rfl⟩

theorem dropWhile_isBlank_cons (filled : ∀ line ∈ rest.head?, isBlank line = false) :
    ([] :: rest).dropWhile isBlank = rest := by
  rw [List.dropWhile_cons_of_pos rfl]
  cases rest with
  | nil => rfl
  | cons line rest => rw [List.dropWhile_cons_of_neg (by simp [filled line rfl])]

theorem noteBlocks_of_blank (filled : ∀ line ∈ rest.head?, isBlank line = false)
    (other : ∀ line ∈ rest.head?, isFootnoteStart line = false) : noteBlocks ([] :: rest) = ([], [] :: rest) := by
  have below := dropWhile_isBlank_cons filled
  cases rest with
  | nil =>
    rw [noteBlocks]
    split
    · rfl
    · next found => cases below.symm.trans found
  | cons line rest => exact noteBlocks_of_other below (by simp [other line rfl])

end

section
variable {footnote : Footnote}

theorem shown_eq {name : Text} (tag : footnote.tag = '#' :: name) :
    footnote.shown = ".. [#".toList ++ name ++ ']' :: trimEnd (' ' :: footnote.text) := by
  have line : footnote.line = (".. [#".toList ++ name) ++ ']' :: ' ' :: footnote.text := by
    simp [Footnote.line, tag]
  rw [Footnote.shown, line, trimEnd_append_cons (by decide)]

theorem isFootnoteStart_shown {name : Text} (tag : footnote.tag = '#' :: name) :
    isFootnoteStart footnote.shown = true := by
  rw [shown_eq tag]
  rfl

theorem isFilledBody_shown {name : Text} (tag : footnote.tag = '#' :: name) :
    isFilledBody footnote.shown = false := by
  rw [shown_eq tag]
  rfl

theorem isBlank_shown {name : Text} (tag : footnote.tag = '#' :: name) : isBlank footnote.shown = false := by
  rw [shown_eq tag]
  rfl

end

section
variable {footnotes : List Footnote} {rest : List Text}

theorem noteBlocks_cons_shown (gap : List Text) (blank : ∀ line ∈ gap, isBlank line = true) {footnote : Footnote}
    {name : Text} (same : footnote.tag = '#' :: name)
    (tag : ∀ note ∈ footnotes, ∃ name, note.tag = '#' :: name) (rest : List Text) :
    noteBlocks (gap ++ footnote.shown :: (footnotes.map Footnote.shown ++ [] :: rest)) =
      (⟨gap, footnote.shown, []⟩ :: (noteBlocks (footnotes.map Footnote.shown ++ [] :: rest)).1,
        (noteBlocks (footnotes.map Footnote.shown ++ [] :: rest)).2) := by
  have stops : (footnotes.map Footnote.shown ++ [] :: rest).takeWhile isFilledBody = [] ∧
      (footnotes.map Footnote.shown ++ [] :: rest).dropWhile isFilledBody =
        footnotes.map Footnote.shown ++ [] :: rest := by
    cases footnotes with
    | nil => exact ⟨rfl, rfl⟩
    | cons next _ =>
      obtain ⟨name, same⟩ := tag next List.mem_cons_self
      simp [isFilledBody_shown same]
  have visible : ¬isBlank footnote.shown = true := by simp [isBlank_shown same]
  have found : (gap ++ footnote.shown :: (footnotes.map Footnote.shown ++ [] :: rest)).dropWhile isBlank =
      footnote.shown :: (footnotes.map Footnote.shown ++ [] :: rest) := by
    rw [List.dropWhile_append_of_pos blank, List.dropWhile_cons_of_neg visible]
  rw [noteBlocks_of_start found (isFootnoteStart_shown same), stops.1, stops.2, List.takeWhile_append_of_pos blank,
    List.takeWhile_cons_of_neg visible, List.append_nil]

theorem noteBlocks_shown (tag : ∀ note ∈ footnotes, ∃ name, note.tag = '#' :: name)
    (filled : ∀ line ∈ rest.head?, isBlank line = false)
    (other : ∀ line ∈ rest.head?, isFootnoteStart line = false) :
    noteBlocks (footnotes.map Footnote.shown ++ [] :: rest) =
      (footnotes.map fun footnote => ⟨[], footnote.shown, []⟩, [] :: rest) := by
  induction footnotes with
  | nil => exact noteBlocks_of_blank filled other
  | cons footnote footnotes ih =>
    rw [List.forall_mem_cons] at tag
    obtain ⟨⟨name, same⟩, tags⟩ := tag
    have first := noteBlocks_cons_shown [] (by simp) same tags rest
    rw [ih tags] at first
    exact first

theorem noteBlocks_written (tag : ∀ note ∈ footnotes, ∃ name, note.tag = '#' :: name)
    (filled : ∀ line ∈ rest.head?, isBlank line = false)
    (other : ∀ line ∈ rest.head?, isFootnoteStart line = false) :
    noteBlocks (noteText (noteBlocksOf footnotes) ++ [] :: rest) = (noteBlocksOf footnotes, [] :: rest) := by
  rw [noteText_noteBlocksOf]
  cases footnotes with
  | nil => exact noteBlocks_of_blank filled other
  | cons first more =>
    rw [List.forall_mem_cons] at tag
    obtain ⟨⟨name, same⟩, tags⟩ := tag
    have whole := noteBlocks_cons_shown [[]] (by simp [isBlank]) same tags rest
    rw [noteBlocks_shown tags filled other] at whole
    exact whole

end

theorem tableBlock_of_rows {options rows : List Text} (body : ∀ line ∈ options ++ rows, isFilledBody line = true)
    (some : rows ≠ []) (directive : Text) (below : List Text) :
    tableBlock directive (options ++ [] :: (rows ++ [] :: below)) =
      (⟨directive, options, [[]], rows, (noteBlocks ([] :: below)).1⟩, (noteBlocks ([] :: below)).2) := by
  rw [List.forall_mem_append] at body
  have visible : ∀ line ∈ (rows ++ [] :: below).head?, isBlank line = false := by
    obtain ⟨row, more, rfl⟩ := List.exists_cons_of_ne_nil some
    rintro _ ⟨⟩
    simpa [isFilled] using isFilled_of_isFilledBody (body.2 row List.mem_cons_self)
  have gap : ([] :: (rows ++ [] :: below)).takeWhile isBlank = [[]] := by
    have skipped := List.takeWhile_append_dropWhile (p := isBlank) (l := [] :: (rows ++ [] :: below))
    rw [dropWhile_isBlank_cons visible, ← List.singleton_append] at skipped
    exact List.append_cancel_right skipped
  obtain ⟨taken, left⟩ := takeWhile_append_blank body.1 rfl (rows ++ [] :: below)
  obtain ⟨rows_taken, rows_left⟩ := takeWhile_append_blank body.2 rfl below
  simp only [tableBlock, taken, left, dropWhile_isBlank_cons visible, rows_taken, rows_left, gap,
    List.isEmpty_eq_false_iff.mpr some, Bool.false_eq_true, if_false]

theorem tableBlock_written {source : TableSource} (sound : source.IsSound) {rest : List Text}
    (filled : ∀ line ∈ rest.head?, isBlank line = false) (other : ∀ line ∈ rest.head?, isFootnoteStart line = false) :
    tableBlock source.block.directive (source.block.lines.tail ++ [] :: rest) = (source.block, [] :: rest) := by
  have body : ∀ line ∈ source.options.map TableOption.line ++ source.rows.map rowLine, isFilledBody line = true := by
    rw [List.forall_mem_append, List.forall_mem_map, List.forall_mem_map]
    exact ⟨fun option _ => isFilledBody_optionLine option, fun row member => isFilledBody_rowLine (sound.row row member)⟩
  have tag : ∀ note ∈ source.footnotes, ∃ name, note.tag = '#' :: name := fun note member =>
    (sound.exists_name member).imp fun _ => And.left
  obtain ⟨below, notes⟩ : ∃ below, noteText (noteBlocksOf source.footnotes) ++ [] :: rest = [] :: below := by
    rw [noteText_noteBlocksOf]
    split <;> exact ⟨_, rfl⟩
  have whole : source.block.lines.tail ++ [] :: rest =
      source.options.map TableOption.line ++ [] :: (source.rows.map rowLine ++ [] :: below) := by
    rw [← notes]
    simp [TableBlock.lines, TableSource.block]
  rw [whole, tableBlock_of_rows body (by simpa using sound.rows), ← notes, noteBlocks_written tag filled other]
  rfl

/-! ## The parts of a table are read back -/

theorem fields_joined {row : List Text} (some : row ≠ []) (plain : ∀ field ∈ row, '"' ∉ field) :
    fields (joinWith [','] (row.map quoted)) = row := by
  have spelled : List.Forall₂ Spells (row.map quoted) row := by
    rw [List.forall₂_map_left_iff, List.forall₂_same]
    exact fun field member => spells_quoted (plain field member)
  have ends : ∀ last ∈ (row.map quoted).getLast?, fieldsFrom last false [] = [fieldOf last] := by
    intro last found
    obtain ⟨field, -, rfl⟩ := List.mem_map.mp (List.mem_of_getLast? found)
    exact fieldsFrom_nil (List.cons_ne_nil _ _)
  have read := fields_of_spells spelled (by simpa using some) ends
  rwa [List.append_nil] at read

theorem fields_rowLine {row : List Text} (some : row ≠ []) (plain : ∀ field ∈ row, '"' ∉ field) :
    fields (trim (rowLine row)) = row := by
  obtain ⟨inner, same⟩ := exists_joined some
  have kept : trim (rowLine row) = joinWith [','] (row.map quoted) := by
    rw [rowLine, trim_append_of_blank rfl, same, trim_cons rfl, trimEnd_append_trimmed rfl (by simp)]
  rw [kept, fields_joined some plain]

theorem option?_line {option : TableOption} (trimmed : IsTrimmed option.value) :
    option? option.line = some (option.key.name, option.value) := by
  have kept : trim option.line = ':' :: (option.key.name ++ ": ".toList ++ option.value) := by
    have lead : option.line = "   ".toList ++ ':' :: (option.key.name ++ ": ".toList ++ option.value) := by
      simp [TableOption.line]
    rw [lead, trim_append_of_blank rfl, trim_cons rfl, trimEnd_append_trimmed trimmed.trimEnd trimmed.filled]
  rw [option?, kept]
  cases option.key <;> rfl

theorem optionValue?_lines {source : TableSource} (sound : source.IsSound) (key : TableKey) :
    optionValue? key.name (source.options.map TableOption.line) = source.value? key := by
  have read : (source.options.map TableOption.line).filterMap option? =
      source.options.map fun option => (option.key.name, option.value) := by
    rw [List.filterMap_map, ← List.filterMap_eq_map']
    exact List.filterMap_congr fun option member => option?_line (sound.options option member)
  have named : ∀ other : TableKey, other.name = key.name ↔ other = key := by
    intro other
    cases other <;> cases key <;> decide
  rw [optionValue?, read, List.filter_map, List.getLast?_map, Option.map_map, TableSource.value?]
  simp only [Function.comp_def, named]

theorem directiveArgument?_directiveLine {name : Text} {argument : Option Text}
    (trimmed : ∀ value ∈ argument, IsTrimmed value) :
    (directiveArgument? name (directiveLine name argument)).map trim = argument := by
  have kept : trim (directiveLine name argument) = directiveLine name argument :=
    (trim_eq_trimEnd rfl _).trans (trimEnd_directiveLine name trimmed)
  have after : afterName? name (directiveLine name argument) = some ("::".toList ++ argument.elim [] (' ' :: ·)) := by
    rw [afterName?, kept, directiveLine, List.append_assoc, List.append_assoc, afterLead?_eq_some_iff.mpr rfl,
      Option.bind_some, afterLead?_eq_some_iff.mpr rfl]
  rw [directiveArgument?, after, Option.bind_some]
  cases argument with
  | none => rfl
  | some value =>
    have found : afterLead? ":: ".toList ("::".toList ++ ' ' :: value) = some value := afterLead?_eq_some_iff.mpr rfl
    rw [Option.elim_some, found]
    simp [Option.filter, (trimmed value rfl).isBlank, (trimmed value rfl).trim]

theorem footnote?_shown {footnote : Footnote} {name : Text} (tag : footnote.tag = '#' :: name) (some : name ≠ [])
    (plain : ']' ∉ name) (trimmed : trim footnote.text = footnote.text) :
    footnote? footnote.shown = Option.some (footnote.tag, footnote.text) := by
  have kept : trim footnote.shown = footnote.shown := (trim_trimEnd _).trans (trim_eq_trimEnd rfl _)
  have cut : (afterLead? ".. [".toList footnote.shown).bind (cut? [']']) =
      Option.some ('#' :: name, trimEnd (' ' :: footnote.text)) := by
    have whole : footnote.shown = ".. [".toList ++ ('#' :: name ++ ']' :: trimEnd (' ' :: footnote.text)) := shown_eq tag
    rw [whole, afterLead?_eq_some_iff.mpr rfl, Option.bind_some, cut?_of_not_mem (by simp [plain])]
  have numbered : (startsWith ['#'] ('#' :: name) && decide (2 ≤ ('#' :: name).length)) = true := by
    have long := List.length_pos_of_ne_nil some
    rw [Bool.and_eq_true, decide_eq_true_eq, List.length_cons]
    exact ⟨rfl, by omega⟩
  rw [footnote?, kept, cut, tag]
  dsimp only
  rw [if_pos numbered]
  cases text : footnote.text with
  | nil => rfl
  | cons c more =>
    have ends : trimEnd (c :: more) = c :: more := by rw [← text, ← trimmed, trimEnd_trim]
    have spaced : trimEnd (' ' :: c :: more) = ' ' :: c :: more := trimEnd_append_trimmed ends (by simp) [' ']
    have after : afterLead? [' '] (' ' :: c :: more) = Option.some (c :: more) := afterLead?_eq_some_iff.mpr rfl
    rw [spaced, if_neg (by simp), after, Option.map_some, ← text, trimmed]

theorem define_of_new {known : List Footnote} {footnote : Footnote} (new : ∀ other ∈ known, other.tag ≠ footnote.tag) :
    Table.define footnote known = known ++ [footnote] := by
  induction known with
  | nil => rfl
  | cons other known ih =>
    rw [List.forall_mem_cons] at new
    rw [Table.define, if_neg new.1, ih new.2]
    rfl

theorem foldl_define {known footnotes : List Footnote}
    (distinct : (known ++ footnotes).Pairwise fun first second => first.tag ≠ second.tag) :
    footnotes.foldl (fun known footnote => Table.define footnote known) known = known ++ footnotes := by
  induction footnotes generalizing known with
  | nil => exact (List.append_nil known).symm
  | cons footnote footnotes ih =>
    have new : ∀ other ∈ known, other.tag ≠ footnote.tag := fun other member =>
      (List.pairwise_append.mp distinct).2.2 other member footnote List.mem_cons_self
    rw [List.append_cons] at distinct
    rw [List.foldl_cons, define_of_new new, ih distinct, List.append_assoc]
    rfl

theorem mem_noteBlocksOf {footnotes : List Footnote} {note : NoteBlock} (member : note ∈ noteBlocksOf footnotes) :
    ∃ footnote ∈ footnotes, note.definition = footnote.shown ∧ note.continuation = [] := by
  cases footnotes with
  | nil => cases member
  | cons first more =>
    rcases List.mem_cons.mp member with rfl | member
    · exact ⟨first, List.mem_cons_self, rfl, rfl⟩
    · obtain ⟨footnote, inside, rfl⟩ := List.mem_map.mp member
      exact ⟨footnote, List.mem_cons_of_mem _ inside, rfl, rfl⟩

theorem definition?_noteBlocksOf {footnotes : List Footnote}
    (accepted : ∀ footnote ∈ footnotes, isDefinition footnote.shown = true) :
    (noteBlocksOf footnotes).filterMap NoteBlock.definition? = footnotes.map fun footnote => (footnote.shown, []) := by
  cases footnotes with
  | nil => rfl
  | cons first more =>
    rw [List.forall_mem_cons] at accepted
    have below : more.filterMap (NoteBlock.definition? ∘ fun footnote => ⟨[], footnote.shown, []⟩) =
        more.map fun footnote => (footnote.shown, []) := by
      rw [← List.filterMap_eq_map']
      refine List.filterMap_congr fun footnote member => ?_
      rw [Function.comp_apply, NoteBlock.definition?, if_pos (accepted.2 footnote member)]
    rw [noteBlocksOf, List.filterMap_cons_some (by rw [NoteBlock.definition?, if_pos accepted.1]), List.filterMap_map,
      below]
    rfl

namespace TableSource
variable {source : TableSource}

theorem isCut_block (sound : source.IsSound) : source.block.IsCut := by
  have cut := isCut_tableBlock source.block.directive (source.block.lines.tail ++ [[]])
  rw [tableBlock_written sound (by rintro _ ⟨⟩) (by rintro _ ⟨⟩)] at cut
  exact cut

theorem parted_block (sound : source.IsSound) :
    source.block.unparted = [] ∧ source.block.parted = noteBlocksOf source.footnotes := by
  have some : ¬source.block.rows.isEmpty = true := by simpa [block] using sound.rows
  rw [TableBlock.unparted, TableBlock.parted, if_neg some, if_neg some]
  exact ⟨rfl, rfl⟩

theorem footnote?_shown (sound : source.IsSound) {footnote : Footnote} (member : footnote ∈ source.footnotes) :
    footnote? footnote.shown = some (footnote.tag, footnote.text) := by
  obtain ⟨name, tag, some, plain⟩ := sound.exists_name member
  exact Document.footnote?_shown tag some plain (sound.text footnote member)

theorem isDefinition_shown (sound : source.IsSound) {footnote : Footnote} (member : footnote ∈ source.footnotes) :
    isDefinition footnote.shown = true := by
  rw [isDefinition, footnote?_shown sound member]
  rfl

theorem isSpaced_block (sound : source.IsSound) : source.block.IsSpaced := by
  refine ⟨fun _ => rfl, fun note first => ?_⟩
  rw [if_neg (by simpa [block] using sound.rows)]
  rw [(parted_block sound).2] at first
  cases footnotes : source.footnotes with
  | nil => simp [noteBlocksOf, footnotes] at first
  | cons footnote more =>
    obtain rfl : ⟨[[]], footnote.shown, []⟩ = note := by simpa [noteBlocksOf, footnotes] using first
    simp

theorem isDefinite_block (sound : source.IsSound) : source.block.IsDefinite := by
  obtain ⟨none, parted⟩ := parted_block sound
  have accepted : ∀ note ∈ source.block.parted, isDefinition note.definition = true := by
    intro note member
    rw [parted] at member
    obtain ⟨footnote, inside, same, -⟩ := mem_noteBlocksOf member
    rw [same, isDefinition_shown sound inside]
  refine ⟨by simp [none], fun note member line inside => ?_, ?_⟩
  · rw [parted] at member
    obtain ⟨footnote, -, -, alone⟩ := mem_noteBlocksOf member
    simp [alone] at inside
  · refine List.Pairwise.isChain (List.pairwise_of_forall_mem_list fun above _ below member _ refused => ?_)
    rw [accepted below member] at refused
    cases refused

theorem footnotes_block (sound : source.IsSound) (anchor : Option Text) :
    (Table.parse source.block.lines anchor).footnotes = source.footnotes := by
  have defined : (source.footnotes.map fun footnote => (footnote.shown, [])).filterMap defined? = source.footnotes := by
    rw [List.filterMap_map]
    conv_rhs => rw [← List.filterMap_some (l := source.footnotes)]
    refine List.filterMap_congr fun footnote member => ?_
    rw [Function.comp_apply, defined?, footnote?_shown sound member, Option.map_some]
    have alone : Table.footnoteText footnote.text [] = footnote.text := by
      rw [Table.footnoteText.eq_1]
      cases footnote.text <;> rfl
    exact congrArg (fun text => some (Footnote.mk footnote.tag text)) alone
  rw [footnotes_parse, ((isSpaced_block sound).read (isCut_block sound)).2,
    (TableBlock.definitions_eq_iff (isCut_block sound)).mpr (isDefinite_block sound),
    TableBlock.definitions, show source.block.footnotes = noteBlocksOf source.footnotes from rfl,
    definition?_noteBlocksOf fun footnote => isDefinition_shown sound, footnotesFrom, defined]
  exact foldl_define sound.distinct

theorem parse_block (sound : source.IsSound) (anchor : Option Text) :
    Table.parse source.block.lines anchor = source.table anchor := by
  have rows : (Table.sections source.block.lines).rows.map (fun line => fields (trim line)) = source.rows := by
    rw [((isSpaced_block sound).read (isCut_block sound)).1, show source.block.rows = source.rows.map rowLine from rfl,
      List.map_map]
    conv_rhs => rw [← List.map_id source.rows]
    exact List.map_congr_left fun row member => fields_rowLine (sound.row row member) (sound.field row member)
  have options : (Table.sections source.block.lines).options = source.options.map TableOption.line := by
    rw [TableBlock.sections_lines (isCut_block sound), TableBlock.top, (parted_block sound).1]
    exact List.append_nil _
  have title : ((Table.sections source.block.lines).directive.bind (directiveArgument? "csv-table".toList)).map trim =
      source.title := directiveArgument?_directiveLine sound.title
  calc Table.parse source.block.lines anchor
    _ = { title := ((Table.sections source.block.lines).directive.bind (directiveArgument? "csv-table".toList)).map trim
          widths := optionValue? TableKey.widths.name (Table.sections source.block.lines).options
          header := optionValue? TableKey.header.name (Table.sections source.block.lines).options
          rows := (Table.sections source.block.lines).rows.map fun line => fields (trim line)
          footnotes := (Table.parse source.block.lines anchor).footnotes
          anchor := anchor } := rfl
    _ = source.table anchor := by
      rw [title, rows, options, optionValue?_lines sound, optionValue?_lines sound, footnotes_block sound]
      rfl

end TableSource
end DocPress.Document
