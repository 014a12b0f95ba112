import DocPress.Proofs.Catalog.Index
import DocPress.Proofs.Text.Lines

namespace DocPress.Catalog
open Text

/-! ## Escapes and quotes -/

def escape (t : Text) : Text :=
  t.flatMap fun c => if c = '\\' then "\\\\".toList else if c = '"' then "\\\"".toList else [c]

def quote (piece : Text) : Text :=
  '"' :: piece ++ ['"']

theorem unescape_escape (t : Text) : unescape (escape t) = t := by
  induction t with
  | nil => rfl
  | cons c t ih =>
    unfold escape at ih ⊢
    rw [List.flatMap_cons]
    split
    · next backslash =>
      subst backslash
      exact congrArg ('\\' :: ·) ih
    · split
      · next double =>
        subst double
        exact congrArg ('"' :: ·) ih
      · next plain _ =>
        rw [List.singleton_append, unescape, ih]
        · exact fun rest same _ => plain same
        · exact fun rest same _ => plain same

theorem quoted?_quote (piece : Text) : quoted? (quote piece) = some piece := by
  have opened : (quote piece).dropWhile (· ≠ '"') = quote piece := rfl
  have closed : (piece ++ ['"']).reverse.dropWhile (· ≠ '"') = '"' :: piece.reverse := by simp
  unfold quoted?
  rw [opened]
  unfold quote
  dsimp only [List.cons_append]
  rw [closed]
  exact congrArg some piece.reverse_reverse

/-! ## What is written for a phrase -/

structure Cut (t : Text) where
  first : Text
  more : List Text
  whole : first ++ more.flatten = t

inductive Remark where
  | comment (text : Text)
  | context (text : Text)
deriving DecidableEq, Repr

def Remark.line : Remark → Text
  | comment text => '#' :: text
  | context text => "msgctxt".toList ++ text

def stringLines (keyword : Text) {t : Text} (cut : Cut t) : List Text :=
  (keyword ++ quote cut.first) :: cut.more.map quote

structure Entry where
  phrase : Phrase
  gap : List Text
  remarks : List Remark
  source : Cut (escape phrase.source)
  target : Cut (escape phrase.target)
  source_filled : phrase.source ≠ []
  target_filled : phrase.target ≠ []
  parted : gap ≠ []
  blank : ∀ line ∈ gap, isBlank line = true

namespace Entry

def block (entry : Entry) : List Text :=
  entry.remarks.map Remark.line ++
    (stringLines "msgid ".toList entry.source ++ stringLines "msgstr ".toList entry.target)

def lines (entry : Entry) : List Text :=
  entry.gap ++ entry.block

end Entry

/-- A written catalog: the lines of its header, and phrases below. -/
structure Book where
  header : List Text
  entries : List Entry
  headed : header ≠ []
  filled : ∀ line ∈ header, isBlank line = false
  single : ∀ line ∈ header ++ entries.flatMap Entry.lines, '\n' ∉ line

namespace Book

def text (book : Book) : Text :=
  terminated (book.header ++ book.entries.flatMap Entry.lines)

def phrases (book : Book) : List Phrase :=
  book.entries.map Entry.phrase

end Book

/-! ## Blocks -/

theorem blocks_cons_blank {line : Text} (blank : isBlank line = true) (rest : List Text) :
    blocks (line :: rest) = blocks rest := by
  cases rest with
  | nil => simp [blocks, blank]
  | cons next rest => rw [blocks, if_pos blank]

theorem blocks_blank {gap : List Text} (blank : ∀ line ∈ gap, isBlank line = true) (rest : List Text) :
    blocks (gap ++ rest) = blocks rest := by
  induction gap with
  | nil => rfl
  | cons line gap ih =>
    obtain ⟨first, below⟩ := List.forall_mem_cons.mp blank
    rw [List.cons_append, blocks_cons_blank first, ih below]

theorem blocks_filled {block rest : List Text} (some : block ≠ []) (filled : ∀ line ∈ block, isBlank line = false)
    (parted : ∀ line ∈ rest.head?, isBlank line = true) : blocks (block ++ rest) = block :: blocks rest := by
  induction block with
  | nil => exact absurd rfl some
  | cons line block ih =>
    obtain ⟨first, below⟩ := List.forall_mem_cons.mp filled
    have visible : ¬ isBlank line = true := by simp [first]
    cases block with
    | nil =>
      cases rest with
      | nil => simp [blocks, first]
      | cons next rest =>
        rw [List.singleton_append, blocks, if_neg visible, if_pos (parted next rfl)]
    | cons next block =>
      have later := ih (List.cons_ne_nil next block) below
      rw [List.cons_append] at later
      rw [List.cons_append, List.cons_append, blocks, if_neg visible, if_neg (by simp [below next]), later]

theorem blocks_map_withoutReturn (ls : List Text) :
    blocks (ls.map withoutReturn) = (blocks ls).map (List.map withoutReturn) := by
  induction ls using blocks.induct with
  | case1 => rfl
  | case2 line blank => simp [blocks, isBlank_withoutReturn, blank]
  | case3 line filled => simp [blocks, isBlank_withoutReturn, filled]
  | case4 line next rest blank ih =>
    rw [blocks, if_pos blank, ← ih]
    exact blocks_cons_blank ((isBlank_withoutReturn line).trans blank) _
  | case5 line next rest filled ends ih =>
    simp only [List.map_cons, blocks, isBlank_withoutReturn, if_neg filled, if_pos ends] at ih ⊢
    rw [ih]
    rfl
  | case6 line next rest filled goes none ih =>
    rw [none] at ih
    simp only [List.map_cons, blocks, isBlank_withoutReturn, if_neg filled, if_neg goes, none] at ih ⊢
    rw [ih]
    rfl
  | case7 line next rest filled goes block more found ih =>
    rw [found] at ih
    simp only [List.map_cons, blocks, isBlank_withoutReturn, if_neg filled, if_neg goes, found] at ih ⊢
    rw [ih]

theorem phraseOf?_map_withoutReturn (block : List Text) : phraseOf? (block.map withoutReturn) = phraseOf? block := by
  have same : ∀ (message : Message) line, message.read (withoutReturn line) = message.read line := by
    intro message line
    unfold Message.read
    rw [trim_withoutReturn]
  unfold phraseOf?
  rw [List.foldl_map]
  simp only [same]

theorem phrases_terminated {ls : List Text} (single : ∀ line ∈ ls, '\n' ∉ line) :
    phrases (terminated ls) = ((blocks ls).drop 1).filterMap phraseOf? := by
  rw [phrases, lines_terminated_of_single single, blocks_map_withoutReturn, ← List.map_drop, List.filterMap_map]
  exact List.filterMap_congr fun block _ => phraseOf?_map_withoutReturn block

/-! ## One block -/

theorem trim_quote (piece : Text) : trim (quote piece) = quote piece :=
  trim_eq_self (by decide) (by decide) piece

theorem read_remark (remark : Remark) : Message.read {} remark.line = {} := by
  cases remark with
  | comment text =>
    unfold Message.read Remark.line
    rw [trim_cons (by decide)]
    rfl
  | context text =>
    have kept : trim (Remark.context text).line = "msgctx".toList ++ 't' :: trimEnd text :=
      (trim_cons (by decide) _).trans
        (congrArg ('m' :: ·) (trimEnd_append_cons (by decide) "sgctx".toList text))
    unfold Message.read
    rw [kept]
    rfl

namespace Message

def append (message : Message) (t : Text) : Message :=
  match message.continues with
  | .source => { message with source := message.source ++ t }
  | .target => { message with target := message.target ++ t }
  | .neither => message

theorem append_nil (message : Message) : message.append [] = message := by
  obtain ⟨source, target, continues⟩ := message
  cases continues <;> simp [append]

theorem append_append (message : Message) (s t : Text) : (message.append s).append t = message.append (s ++ t) := by
  obtain ⟨source, target, continues⟩ := message
  cases continues <;> simp [append]

theorem extend_quote (message : Message) (part : Open) (piece : Text) :
    message.extend part (quote piece) = { message with continues := part }.append piece := by
  unfold extend
  rw [quoted?_quote]
  cases part <;> rfl

theorem read_quote (message : Message) (piece : Text) : message.read (quote piece) = message.append piece := by
  rw [← message.extend_quote message.continues]
  unfold read
  rw [trim_quote]
  rfl

theorem read_source (message : Message) (piece : Text) :
    message.read ("msgid ".toList ++ quote piece) = { message with continues := .source }.append piece := by
  have kept : trim ("msgid ".toList ++ quote piece) = "msgid ".toList ++ quote piece :=
    trim_eq_self (by decide) (by decide) ("sgid ".toList ++ '"' :: piece)
  rw [← extend_quote]
  unfold read
  rw [kept]
  rfl

theorem read_target (message : Message) (piece : Text) :
    message.read ("msgstr ".toList ++ quote piece) = { message with continues := .target }.append piece := by
  have kept : trim ("msgstr ".toList ++ quote piece) = "msgstr ".toList ++ quote piece :=
    trim_eq_self (by decide) (by decide) ("sgstr ".toList ++ '"' :: piece)
  rw [← extend_quote]
  unfold read
  rw [kept]
  rfl

theorem foldl_read_quotes (pieces : List Text) (message : Message) :
    (pieces.map quote).foldl read message = message.append pieces.flatten := by
  induction pieces generalizing message with
  | nil => exact message.append_nil.symm
  | cons piece pieces ih =>
    rw [List.map_cons, List.foldl_cons, read_quote, ih, append_append, List.flatten_cons]

variable {keyword : Text} {part : Open}

theorem foldl_read_stringLines
    (opens : ∀ message piece, read message (keyword ++ quote piece) = { message with continues := part }.append piece)
    {t : Text} (cut : Cut t) (message : Message) :
    (stringLines keyword cut).foldl read message = { message with continues := part }.append t := by
  rw [stringLines, List.foldl_cons, opens, foldl_read_quotes, append_append, cut.whole]

theorem foldl_read_remarks (remarks : List Remark) : (remarks.map Remark.line).foldl read {} = {} := by
  induction remarks with
  | nil => rfl
  | cons remark remarks ih => rw [List.map_cons, List.foldl_cons, read_remark, ih]

end Message

namespace Entry
variable (entry : Entry)

theorem phraseOf?_block : phraseOf? entry.block = some entry.phrase := by
  have message : entry.block.foldl Message.read {} =
      ⟨escape entry.phrase.source, escape entry.phrase.target, .target⟩ := by
    rw [block, List.foldl_append, List.foldl_append, Message.foldl_read_remarks,
      Message.foldl_read_stringLines Message.read_source, Message.foldl_read_stringLines Message.read_target]
    rfl
  unfold phraseOf?
  simp [message, unescape_escape, entry.source_filled, entry.target_filled]

theorem filled_block : ∀ line ∈ entry.block, isBlank line = false := by
  intro line member
  simp only [block, stringLines, List.mem_append, List.mem_map, List.mem_cons] at member
  rcases member with ⟨remark, -, rfl⟩ | (rfl | ⟨piece, -, rfl⟩) | rfl | ⟨piece, -, rfl⟩
  · cases remark <;> rfl
  all_goals rfl

theorem blocks_lines {rest : List Text} (parted : ∀ line ∈ rest.head?, isBlank line = true) :
    blocks (entry.lines ++ rest) = entry.block :: blocks rest := by
  have some : entry.block ≠ [] := by simp [block, stringLines]
  rw [lines, List.append_assoc, blocks_blank entry.blank, blocks_filled some entry.filled_block parted]

theorem isBlank_of_head?_lines {line : Text} (first : entry.lines.head? = some line) : isBlank line = true := by
  obtain ⟨gap, more, same⟩ := List.exists_cons_of_ne_nil entry.parted
  rw [lines, same] at first
  cases first
  exact entry.blank line (same ▸ List.mem_cons_self)

end Entry

/-! ## A whole catalog -/

theorem isBlank_of_head?_entries {entries : List Entry} {line : Text}
    (first : line ∈ (entries.flatMap Entry.lines).head?) : isBlank line = true := by
  cases entries with
  | nil => cases first
  | cons entry entries =>
    have some : entry.lines ≠ [] := by simp [Entry.lines, entry.parted]
    rw [List.flatMap_cons, List.head?_append_of_ne_nil _ some] at first
    exact entry.isBlank_of_head?_lines first

theorem blocks_entries (entries : List Entry) : blocks (entries.flatMap Entry.lines) = entries.map Entry.block := by
  induction entries with
  | nil => rfl
  | cons entry entries ih =>
    rw [List.flatMap_cons, entry.blocks_lines fun _ => isBlank_of_head?_entries, ih, List.map_cons]

theorem phrases_text (book : Book) : phrases book.text = book.phrases := by
  rw [Book.text, phrases_terminated book.single,
    blocks_filled book.headed book.filled fun _ => isBlank_of_head?_entries, blocks_entries, List.drop_one,
    List.tail_cons, List.filterMap_map, Book.phrases, ← List.filterMap_eq_map]
  exact List.filterMap_congr fun entry _ => entry.phraseOf?_block

/-- A written catalog is read back: its sources stand in the order in which they first come, each with its last
target. -/
theorem parse_text (book : Book) :
    (parse book.text).entries.map Phrase.source = Keyed.keys Phrase.source book.phrases ∧
    (∀ entry ∈ (parse book.text).entries, Keyed.last? Phrase.source book.phrases entry.source = some entry) ∧
    ∀ source, (parse book.text).get? source = (Keyed.last? Phrase.source book.phrases source).map Phrase.target := by
  rw [parse, phrases_text]
  have entries := entries_ofList book.phrases
  refine ⟨?_, fun entry member => Keyed.last?_of_mem_latest (entries ▸ member), get?_ofList book.phrases⟩
  rw [entries, Keyed.map_key_latest]

def phrasebook : Book where
  header := ["msgid \"\"".toList]
  entries :=
    [{ phrase := ⟨"File".toList, "Datei".toList⟩, gap := [[]], remarks := [.context " \"menu\"".toList]
       source := ⟨"File".toList, [], rfl⟩, target := ⟨[], ["Da".toList, "tei".toList], rfl⟩
       source_filled := by decide, target_filled := by decide, parted := by decide, blank := by decide },
     { phrase := ⟨"\"a\"".toList, "\\a".toList⟩, gap := [" ".toList, []], remarks := [.comment ", fuzzy".toList]
       source := ⟨"\\".toList, ["\"a\\".toList, "\"".toList], rfl⟩, target := ⟨"\\".toList, ["\\a".toList], rfl⟩
       source_filled := by decide, target_filled := by decide, parted := by decide, blank := by decide },
     { phrase := ⟨"File".toList, "Akte".toList⟩, gap := [[]], remarks := []
       source := ⟨"File".toList, [], rfl⟩, target := ⟨"Akte".toList, [], rfl⟩
       source_filled := by decide, target_filled := by decide, parted := by decide, blank := by decide }]
  headed := by decide
  filled := by decide
  single := by decide +kernel

theorem parse_text_phrasebook :
    (parse phrasebook.text).entries.map Phrase.source = ["File".toList, "\"a\"".toList] ∧
      (parse phrasebook.text).get? "File".toList = some "Akte".toList := by
  obtain ⟨sources, -, targets⟩ := parse_text phrasebook
  exact ⟨sources.trans (by decide +kernel), (targets "File".toList).trans (by decide +kernel)⟩

end DocPress.Catalog
