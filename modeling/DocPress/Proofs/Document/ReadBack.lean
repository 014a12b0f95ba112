import DocPress.Proofs.Document.Scan
import DocPress.Proofs.Document.WrittenTable

namespace DocPress.Document
open Text Markup Heading

/-! ## The blocks of entries -/

def Body.blocks (anchor : Option Text) : Body → List Block
  | .header overlined title underline =>
    .header (if overlined then some underline else none) title underline :: anchor.toList.map .label
  | .paragraph lines => .paragraph lines :: anchor.toList.map .label
  | .table source => [.table source.block.lines anchor]
  | .figure path caption => [.figure ((Body.figure path caption).lines ++ [[]]) anchor]

def Entry.blocks (entry : Entry) : List Block :=
  entry.body.blocks entry.anchor

/-! ## What the lines of an entry are read as -/

section
variable {line underline : Text} {rest : List Text} {waiting : Bool}

theorem nextMove_heading (filled : isBlank line = false) (plain : anchor? line = none)
    (underlines : isUnderline underline = true) (waiting : Bool) (rest : List Text) :
    nextMove waiting line (underline :: rest) = .heading line underline := by
  rw [nextMove, plain]
  dsimp only
  rw [underlined_eq_some_iff.mpr ⟨rfl, underlines, filled⟩]

theorem underlined_eq_none (flat : ∀ next ∈ rest.head?, isUnderline next = false) :
    ((rest.head?.filter isUnderline).filter fun _ => !isBlank line) = none := by
  rw [Option.eq_none_iff_forall_ne_some]
  intro underline found
  obtain ⟨head, underlines, _⟩ := underlined_eq_some_iff.mp found
  rw [flat underline head] at underlines
  cases underlines

theorem nextMove_text (title : IsTitle line) (plain : startsBlock line = false)
    (free : capturedMember? waiting line = none) (flat : ∀ next ∈ rest.head?, isUnderline next = false) :
    nextMove waiting line rest = .text line := by
  rw [startsBlock, Bool.or_eq_false_iff] at plain
  rw [nextMove, title.plain]
  dsimp only
  rw [underlined_eq_none flat]
  simp only [plain, free, title.filled, Bool.false_eq_true, if_false]

theorem nextMove_table (start : startsWith ".. csv-table::".toList line = true)
    (flat : ∀ next ∈ rest.head?, isUnderline next = false) (waiting : Bool) :
    nextMove waiting line rest = .table (tableBlock line rest).1 := by
  rw [nextMove, anchor?_eq_none start fun _ => rfl]
  simp only [underlined_eq_none flat, start, if_true]

theorem nextMove_figure (start : startsWith ".. figure::".toList line = true)
    (flat : ∀ next ∈ rest.head?, isUnderline next = false) (waiting : Bool) :
    nextMove waiting line rest = .figure (line :: rest.takeWhile (inBlock isBody)) := by
  have other : startsWith ".. csv-table::".toList line = false := by
    obtain ⟨after, found⟩ := Option.isSome_iff_exists.mp start
    rw [afterLead?_eq_some_iff.mp found]
    rfl
  rw [nextMove, anchor?_eq_none start fun _ => rfl]
  simp only [underlined_eq_none flat, start, other, if_true, Bool.false_eq_true, if_false]

theorem isTitle_of_isUnderline (trimmed : trimEnd line = line) (underlines : isUnderline line = true) :
    IsTitle line where
  trimmed := trimmed
  filled := by
    rw [Bool.eq_false_iff]
    intro blank
    rw [isUnderline, underlineMarker?_eq_none_of_blank blank] at underlines
    cases underlines
  plain := anchor?_of_isUnderline underlines

theorem exists_marker_cons (trimmed : trimEnd line = line) (underlines : isUnderline line = true) :
    ∃ (marker : Marker) (n : Nat), line = marker.toChar :: marker.toChar :: List.replicate n marker.toChar := by
  obtain ⟨marker, found⟩ := Option.isSome_iff_exists.mp underlines
  obtain ⟨n, long, visible⟩ := underlineMarker?_eq_some_iff.mp found
  obtain ⟨k, rfl⟩ : ∃ k, n = k + 1 + 1 := ⟨n - 2, by omega⟩
  exact ⟨marker, k, by rw [← trimmed, visible, List.replicate_succ, List.replicate_succ]⟩

theorem startsBlock_of_isUnderline (trimmed : trimEnd line = line) (underlines : isUnderline line = true) :
    startsBlock line = false := by
  obtain ⟨marker, n, rfl⟩ := exists_marker_cons trimmed underlines
  cases marker <;> rfl

theorem capturedMember?_of_isUnderline (trimmed : trimEnd line = line) (underlines : isUnderline line = true)
    (waiting : Bool) : capturedMember? waiting line = none := by
  obtain ⟨marker, n, rfl⟩ := exists_marker_cons trimmed underlines
  cases waiting <;> cases marker <;> rfl

end

/-! ## Reading an entry -/

namespace Reader

structure IsIdle (reader : Reader) : Prop where
  paragraph : reader.paragraph = []
  waiting : reader.waiting = none

theorem sources_move (reader : Reader) {line : Text} {rest below : List Text} {move : Move}
    (made : nextMove reader.waiting.isSome line rest = move) (whole : move.lines ++ below = line :: rest) :
    reader.sources (line :: rest) = reader.emitted move ++ (reader.next move).sources below := by
  have read := lines_nextMove reader.waiting.isSome line rest
  rw [made, ← whole] at read
  rw [sources, made, List.append_cancel_left read]

theorem map_placed_anchor (reader : Reader) : reader.placed.map Source.block = reader.anchor?.toList.map .label := by
  rw [map_placed, anchor?]
  cases reader.waiting <;> rfl

/-- What is read from idle on: some blocks, and then what an idle reader reads. -/
def Gives (reader : Reader) (lines : List Text) (blocks : List Block) (rest : List Text) : Prop :=
  ∃ later : Reader, later.IsIdle ∧
    (reader.sources lines).map Source.block = blocks ++ (later.sources rest).map Source.block

variable {reader : Reader}

theorem gives_blank (idle : reader.IsIdle) (rest : List Text) : reader.Gives ([] :: rest) [] rest := by
  obtain ⟨silent, after⟩ := blank_of_closed idle.paragraph []
  refine ⟨reader.next (.blank []), ?_, ?_⟩
  · rw [after]
    exact ⟨rfl, idle.waiting⟩
  · rw [reader.sources_move (nextMove_of_blank _ rfl rest) rfl, silent]
    rfl

theorem Gives.append {lines middle rest : List Text} {first second : List Block}
    (gives : reader.Gives lines first middle)
    (more : ∀ later : Reader, later.IsIdle → later.Gives middle second rest) :
    reader.Gives lines (first ++ second) rest := by
  obtain ⟨later, idle, same⟩ := gives
  obtain ⟨last, still, below⟩ := more later idle
  exact ⟨last, still, by rw [same, below, List.append_assoc]⟩

variable {title underline : Text}

theorem gives_heading (closed : reader.paragraph = []) (isTitle : IsTitle title)
    (underlines : isUnderline underline = true) (rest : List Text) :
    reader.Gives (title :: underline :: rest) (.header none title underline :: reader.anchor?.toList.map .label) rest := by
  refine ⟨reader.next (.heading title underline), ⟨rfl, rfl⟩, ?_⟩
  have apart : ¬reader.Overlined underline := fun overlined => by simp [Overlined, closed] at overlined
  rw [reader.sources_move (nextMove_heading isTitle.filled isTitle.plain underlines _ rest) rfl, List.map_append,
    emitted, if_neg apart, flushed_of_closed closed, List.map_append, map_placed_anchor]
  rfl

theorem gives_overlined (closed : reader.paragraph = []) (header : IsHeader true title underline) (rest : List Text) :
    reader.Gives (underline :: title :: underline :: rest)
      (.header (some underline) title underline :: reader.anchor?.toList.map .label) rest := by
  have title_above := isTitle_of_isUnderline header.trimmed header.underlines
  have flat : ∀ next ∈ (title :: underline :: rest).head?, isUnderline next = false := by
    rintro _ ⟨⟩
    exact header.apart rfl
  have text := nextMove_text title_above (startsBlock_of_isUnderline header.trimmed header.underlines)
    (capturedMember?_of_isUnderline header.trimmed header.underlines reader.waiting.isSome) flat
  have heading := nextMove_heading header.isTitle.filled header.isTitle.plain header.underlines
    (reader.next (.text underline)).waiting.isSome rest
  -- The overline is read into a paragraph of its own, which the heading takes.
  refine ⟨(reader.next (.text underline)).next (.heading title underline), ⟨rfl, rfl⟩, ?_⟩
  have overlined : (reader.next (.text underline)).Overlined underline := by
    refine ⟨?_, rfl⟩
    rw [next, closed]
    rfl
  rw [reader.sources_move text rfl, Reader.sources_move _ heading rfl,
    List.map_append, List.map_append, emitted, emitted, if_pos overlined, List.map_append, map_placed_anchor]
  rfl

theorem exists_texts {reader : Reader} {texts : List Text} (titles : ∀ line ∈ texts, IsTitle line)
    (plain : ∀ line ∈ texts, startsBlock line = false)
    (free : ∀ line ∈ texts, capturedMember? reader.waiting.isSome line = none)
    (flat : ∀ line ∈ texts.tail, isUnderline line = false) {rest : List Text}
    (stops : ∀ next ∈ rest.head?, isUnderline next = false) :
    ∃ later, reader.Reading texts later ∧ reader.sources (texts ++ rest) = later.sources rest := by
  induction texts generalizing reader with
  | nil => exact ⟨reader, .nil reader, rfl⟩
  | cons line texts ih =>
    rw [List.forall_mem_cons] at titles plain free
    have level : ∀ next ∈ (texts ++ rest).head?, isUnderline next = false := by
      cases texts with
      | nil => exact stops
      | cons next texts =>
        rintro _ ⟨⟩
        exact flat next List.mem_cons_self
    have text := nextMove_text titles.1 plain.1 free.1 level
    have below : ∀ next ∈ texts.tail, isUnderline next = false := fun next member =>
      flat next (List.mem_of_mem_tail member)
    obtain ⟨later, reading, same⟩ := @ih (reader.next (.text line)) titles.2 plain.2 free.2 below
    have moved : reader.sources (line :: texts ++ rest) = (reader.next (.text line)).sources (texts ++ rest) :=
      reader.sources_move text rfl
    exact ⟨later, reading.cons, moved.trans same⟩

theorem gives_paragraph (closed : reader.paragraph = []) {texts : List Text} (paragraph : IsParagraph texts)
    (free : ∀ line ∈ texts, capturedMember? reader.waiting.isSome line = none) (rest : List Text) :
    reader.Gives (texts ++ [] :: rest) (.paragraph texts :: reader.anchor?.toList.map .label) rest := by
  have stops : ∀ next ∈ ([] :: rest).head?, isUnderline next = false := by
    rintro _ ⟨⟩
    rfl
  obtain ⟨later, reading, same⟩ := exists_texts paragraph.isTitle paragraph.plain free paragraph.flat stops
  have texts : later.paragraph = texts := by rw [reading.paragraph, closed, List.nil_append]
  have opened : later.paragraph ≠ [] := by
    rw [texts]
    exact paragraph.some
  have anchor : later.anchor? = reader.anchor? := by rw [anchor?, reading.waiting, anchor?]
  obtain ⟨ended, after⟩ := blank_of_open opened []
  refine ⟨later.next (.blank []), by rw [after]; exact ⟨rfl, rfl⟩, ?_⟩
  rw [same, later.sources_move (nextMove_of_blank _ rfl rest) rfl, ended, flushed_of_open opened, List.map_append,
    List.map_append, map_placed_anchor, anchor, texts]
  rfl

theorem gives_table (closed : reader.paragraph = []) {source : TableSource} (sound : source.IsSound) {rest : List Text}
    (filled : ∀ line ∈ rest.head?, isBlank line = false) (other : ∀ line ∈ rest.head?, isFootnoteStart line = false) :
    reader.Gives (source.block.lines ++ [] :: rest) [.table source.block.lines reader.anchor?] ([] :: rest) := by
  have flat : ∀ next ∈ (source.block.lines.tail ++ [] :: rest).head?, isUnderline next = false := by
    rw [TableBlock.lines, TableSource.block]
    cases source.options with
    | nil => rintro _ ⟨⟩; rfl
    | cons option more =>
      rintro _ ⟨⟩
      have body := isFilledBody_optionLine option
      rw [isFilledBody, Bool.and_eq_true] at body
      exact isUnderline_of_isBody body.2
  have start : startsWith ".. csv-table::".toList source.block.directive = true := startsWith_append _ _
  have table := nextMove_table start flat reader.waiting.isSome
  rw [tableBlock_written sound filled other] at table
  have moved : reader.sources (source.block.lines ++ [] :: rest) =
      reader.emitted (.table source.block) ++ (reader.next (.table source.block)).sources ([] :: rest) :=
    reader.sources_move table rfl
  refine ⟨reader.next (.table source.block), ⟨rfl, rfl⟩, ?_⟩
  rw [moved, emitted, flushed_of_closed closed]
  rfl

theorem gives_figure (closed : reader.paragraph = []) (path caption : Option Text) {rest : List Text}
    (filled : ∀ line ∈ rest.head?, isBlank line = false) (other : ∀ line ∈ rest.head?, isBody line = false) :
    reader.Gives ((Body.figure path caption).lines ++ [] :: rest)
      [.figure ((Body.figure path caption).lines ++ [[]]) reader.anchor?] rest := by
  have inside : ∀ line ∈ (Body.figure path caption).lines.tail ++ [[]], inBlock isBody line = true := by
    cases caption with
    | none => simp [Body.lines, inBlock]
    | some caption => simp [Body.lines, inBlock, ← isBody_caption caption]
  have stops : rest.takeWhile (inBlock isBody) = [] := by
    cases rest with
    | nil => rfl
    | cons line rest =>
      have some : line ≠ [] := by
        rintro rfl
        cases filled [] rfl
      rw [List.takeWhile_cons_of_neg (by simp [inBlock, some, other line rfl])]
  have flat : ∀ next ∈ ((Body.figure path caption).lines.tail ++ [[]] ++ rest).head?, isUnderline next = false := by
    rintro _ ⟨⟩
    rfl
  have start : startsWith ".. figure::".toList (directiveLine "figure".toList path) = true := startsWith_append _ _
  have figure := nextMove_figure start flat reader.waiting.isSome
  rw [List.takeWhile_append_of_pos inside, stops, List.append_nil] at figure
  have moved : reader.sources ((Body.figure path caption).lines ++ [] :: rest) =
      reader.emitted (.figure ((Body.figure path caption).lines ++ [[]])) ++
        (reader.next (.figure ((Body.figure path caption).lines ++ [[]]))).sources rest := by
    rw [List.append_cons]
    exact reader.sources_move figure rfl
  refine ⟨reader.next (.figure ((Body.figure path caption).lines ++ [[]])), ⟨rfl, rfl⟩, ?_⟩
  rw [moved, emitted, flushed_of_closed closed]
  rfl

end Reader

/-! ## Reading a document -/

def Body.shown : Body → List Text
  | .table source => source.block.lines
  | body => body.lines

def Entry.shown (entry : Entry) : List Text :=
  entry.anchor.toList.flatMap (fun anchor => [labelLine anchor, []]) ++ (entry.body.shown ++ [[]])

theorem Body.map_trimEnd_lines {body : Body} (sound : body.IsSound) : body.lines.map trimEnd = body.shown := by
  cases body with
  | header overlined title underline =>
    cases overlined <;> simp [Body.lines, shown, sound.trimmed, sound.isTitle.trimmed]
  | paragraph texts =>
    exact (List.map_congr_left fun line member => (sound.isTitle line member).trimmed).trans (List.map_id texts)
  | table source => exact TableSource.map_trimEnd_lines sound
  | figure path caption =>
    rw [shown, Body.lines, List.map_cons, trimEnd_directiveLine _ sound.isPath]
    · cases caption with
      | none => rfl
      | some caption =>
        have trimmed := sound.isCaption caption rfl
        have below := trimEnd_append_trimmed trimmed.trimEnd trimmed.filled "   ".toList
        rw [Option.toList_some, List.map_singleton, List.map_cons, List.map_singleton, below]
        rfl
    · rintro source ⟨⟩

theorem Entry.map_trimEnd_lines {entry : Entry} (sound : entry.IsSound) : entry.lines.map trimEnd = entry.shown := by
  rw [Entry.lines, shown, List.map_append, List.map_append, Body.map_trimEnd_lines sound.body, List.append_assoc]
  cases entry.anchor with
  | none => rfl
  | some anchor => simp [trimEnd_labelLine]

namespace Reader
variable {reader : Reader} {rest : List Text}

theorem gives_body (closed : reader.paragraph = []) {body : Body} (sound : body.IsSound)
    (free : reader.waiting.isSome = true → body.isFree = true) (filled : ∀ line ∈ rest.head?, isBlank line = false)
    (ends : ∀ line ∈ rest.head?, body.endsAbove line = true) :
    reader.Gives (body.shown ++ [] :: rest) (body.blocks reader.anchor?) rest := by
  cases body with
  | header overlined title underline =>
    have heading : reader.Gives ((Body.header overlined title underline).shown ++ [] :: rest)
        ((Body.header overlined title underline).blocks reader.anchor?) ([] :: rest) := by
      cases overlined with
      | false => exact gives_heading closed sound.isTitle sound.underlines ([] :: rest)
      | true => exact gives_overlined closed sound ([] :: rest)
    have whole := heading.append fun later idle => gives_blank idle rest
    rw [List.append_nil] at whole
    exact whole
  | paragraph texts =>
    refine gives_paragraph closed sound (fun line member => ?_) rest
    cases waits : reader.waiting.isSome with
    | false => rfl
    | true =>
      have free := List.all_eq_true.mp (free waits) line member
      exact Option.isNone_iff_eq_none.mp free
  | table source =>
    have other : ∀ line ∈ rest.head?, isFootnoteStart line = false := fun line first => by
      simpa [Body.endsAbove] using ends line first
    exact (gives_table closed sound filled other).append fun later idle => gives_blank idle rest
  | figure path caption =>
    have other : ∀ line ∈ rest.head?, isBody line = false := fun line first => by
      simpa [Body.endsAbove] using ends line first
    exact gives_figure closed path caption filled other

theorem exists_labelled (idle : reader.IsIdle) {anchor : Text} (filled : anchor ≠ []) (rest : List Text) :
    ∃ later : Reader, later.paragraph = [] ∧ later.anchor? = some anchor ∧
      reader.sources (labelLine anchor :: [] :: rest) = later.sources rest := by
  have label := nextMove_of_label reader.waiting.isSome (anchor?_labelLine filled) ([] :: rest)
  have silent : reader.emitted (.label (labelLine anchor) anchor) = [] := by
    rw [emitted, placed, idle.waiting]
    rfl
  have closed : (reader.next (.label (labelLine anchor) anchor)).paragraph = [] := idle.paragraph
  obtain ⟨quiet, after⟩ := blank_of_closed closed []
  refine ⟨(reader.next (.label (labelLine anchor) anchor)).next (.blank []), by rw [after], by rw [after]; rfl, ?_⟩
  have first : reader.sources (labelLine anchor :: [] :: rest) =
      (reader.next (.label (labelLine anchor) anchor)).sources ([] :: rest) := by
    rw [reader.sources_move label rfl, silent, List.nil_append]
  have second : (reader.next (.label (labelLine anchor) anchor)).sources ([] :: rest) =
      ((reader.next (.label (labelLine anchor) anchor)).next (.blank [])).sources rest := by
    rw [sources_move _ (nextMove_of_blank _ rfl rest) rfl, quiet, List.nil_append]
  exact first.trans second

theorem gives_entry (idle : reader.IsIdle) {entry : Entry} (sound : entry.IsSound)
    (filled : ∀ line ∈ rest.head?, isBlank line = false)
    (ends : ∀ line ∈ rest.head?, entry.body.endsAbove line = true) :
    reader.Gives (entry.shown ++ rest) entry.blocks rest := by
  have whole : entry.body.shown ++ [[]] ++ rest = entry.body.shown ++ [] :: rest := List.append_assoc ..
  rw [Entry.shown, Entry.blocks, List.append_assoc, whole]
  cases named : entry.anchor with
  | none =>
    have gives := gives_body idle.paragraph sound.body (by simp [idle.waiting]) filled ends
    rw [anchor?, idle.waiting] at gives
    exact gives
  | some anchor =>
    obtain ⟨later, closed, waits, same⟩ := exists_labelled idle (sound.anchor anchor named).filled
      (entry.body.shown ++ [] :: rest)
    have free : entry.body.isFree = true := sound.free (by rw [named]; rfl)
    obtain ⟨last, still, below⟩ := gives_body closed sound.body (fun _ => free) filled ends
    rw [waits] at below
    exact ⟨last, still, (congrArg _ same).trans below⟩

end Reader

/-! The first line of an entry is a label or the first line of its block. -/

theorem Body.exists_first {body : Body} (sound : body.IsSound) :
    ∃ line more below, body.lines = line :: more ∧ body.shown = line :: below ∧ isBlank line = false := by
  cases body with
  | header overlined title underline =>
    cases overlined with
    | false => exact ⟨title, _, _, rfl, rfl, sound.isTitle.filled⟩
    | true => exact ⟨underline, _, _, rfl, rfl, (isTitle_of_isUnderline sound.trimmed sound.underlines).filled⟩
  | paragraph texts =>
    obtain ⟨line, more, rfl⟩ := List.exists_cons_of_ne_nil sound.some
    exact ⟨line, more, more, rfl, rfl, (sound.isTitle line List.mem_cons_self).filled⟩
  | table source => exact ⟨directiveLine "csv-table".toList source.title, _, _, rfl, rfl, rfl⟩
  | figure path caption => exact ⟨directiveLine "figure".toList path, _, _, rfl, rfl, rfl⟩

theorem endsAbove_labelLine (body : Body) (anchor : Text) : body.endsAbove (labelLine anchor) = true := by
  cases body <;> rfl

theorem Entry.head?_shown {above below : Entry} (sound : below.IsSound) (apart : above.EndsAbove below)
    (rest : List Text) : ∀ line ∈ (below.shown ++ rest).head?, isBlank line = false ∧ above.body.endsAbove line = true := by
  rw [shown]
  cases named : below.anchor with
  | some anchor =>
    rintro _ ⟨⟩
    exact ⟨rfl, endsAbove_labelLine above.body anchor⟩
  | none =>
    obtain ⟨line, more, rest, lines, shown, filled⟩ := Body.exists_first sound.body
    rw [shown]
    rintro _ ⟨⟩
    exact ⟨filled, apart named line (by rw [lines]; rfl)⟩

theorem blocks_of_idle {entries : List Entry} (sound : IsSound entries) {reader : Reader} (idle : reader.IsIdle) :
    (reader.sources (entries.flatMap Entry.shown)).map Source.block = entries.flatMap Entry.blocks := by
  induction entries generalizing reader with
  | nil =>
    rw [List.flatMap_nil, Reader.sources_nil_of_closed idle.paragraph idle.waiting]
    rfl
  | cons entry entries ih =>
    obtain ⟨sound, apart⟩ := sound
    rw [List.forall_mem_cons] at sound
    rw [List.isChain_cons] at apart
    have head : ∀ line ∈ (entries.flatMap Entry.shown).head?,
        isBlank line = false ∧ entry.body.endsAbove line = true := by
      cases entries with
      | nil => rintro _ ⟨⟩
      | cons next more => exact Entry.head?_shown (sound.2 next List.mem_cons_self) (apart.1 next rfl) _
    obtain ⟨later, still, same⟩ := Reader.gives_entry idle sound.1 (fun line first => (head line first).1)
      fun line first => (head line first).2
    rw [List.flatMap_cons, List.flatMap_cons, same, ih ⟨sound.2, apart.2⟩ still]

theorem blocks_written {entries : List Entry} (sound : IsSound entries) :
    blocks (written entries) = entries.flatMap Entry.blocks := by
  have shown : (written entries).map trimEnd = entries.flatMap Entry.shown := by
    rw [written, List.map_flatMap]
    exact List.flatMap_congr fun entry member => Entry.map_trimEnd_lines (sound.entry entry member)
  rw [blocks_eq_map_sources, sources, shown]
  exact blocks_of_idle sound ⟨rfl, rfl⟩

end DocPress.Document
