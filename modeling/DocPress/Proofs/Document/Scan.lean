import DocPress.Proofs.Document.Positions

namespace DocPress.Document
open Text Markup Heading

namespace Reader

theorem sources_nil_of_closed {reader : Reader} (closed : reader.paragraph = []) (free : reader.waiting = none) :
    reader.sources [] = [] := by
  rw [sources, flushed_of_closed closed, placed, free]
  rfl

theorem opened_move {reader : Reader} (filled : reader.paragraph ≠ []) (move : Move) :
    (∃ source ∈ reader.emitted move, source.IsContent ∧ source.first = reader.opened) ∨
      ((reader.next move).paragraph ≠ [] ∧ (reader.next move).opened = reader.opened) := by
  have ended : ∀ later, reader.emitted move = reader.flushed ++ later →
      ∃ source ∈ reader.emitted move, source.IsContent ∧ source.first = reader.opened := by
    intro later emitted
    rw [emitted, flushed_of_open filled]
    exact ⟨_, List.mem_cons_self, by rintro _ ⟨⟩, rfl⟩
  cases move with
  | label line anchor => exact .inr ⟨filled, rfl⟩
  | heading title underline =>
    by_cases overlined : reader.Overlined underline
    · refine .inl ⟨⟨.header (some underline) title underline, reader.opened, none⟩, ?_, by rintro _ ⟨⟩, rfl⟩
      rw [emitted, if_pos overlined]
      exact List.mem_cons_self
    · exact .inl (ended _ (by rw [emitted, if_neg overlined, List.append_assoc]))
  | table block | figure lines | captured lines => exact .inl (ended _ rfl)
  | blank line => exact .inl (ended _ (blank_of_open filled line).1)
  | text line => exact .inr ⟨by simp [next], if_neg (by simpa using filled)⟩

theorem exists_opened {reader : Reader} (filled : reader.paragraph ≠ []) (lines : List Text) :
    ∃ source ∈ reader.sources lines, source.IsContent ∧ source.first = reader.opened := by
  induction reader, lines using sources.induct with
  | case1 reader =>
    rw [sources, flushed_of_open filled]
    exact ⟨_, List.mem_cons_self, by rintro _ ⟨⟩, rfl⟩
  | case2 reader line rest move ih =>
    rw [sources]
    rcases opened_move filled move with ⟨source, member, content, first⟩ | ⟨later, same⟩
    · exact ⟨source, List.mem_append_left _ member, content, first⟩
    · obtain ⟨source, member, content, first⟩ := ih later
      exact ⟨source, List.mem_append_right _ member, content, first.trans same⟩

theorem exists_started {reader : Reader} (closed : reader.paragraph = []) {line : Text} (rest : List Text)
    (filled : isBlank line = false) (plain : Markup.anchor? line = none) :
    ∃ source ∈ reader.sources (line :: rest), source.IsContent ∧ source.first = reader.line := by
  have made := moveAt_nextMove reader.waiting.isSome line rest
  have apart : ∀ underline, ¬reader.Overlined underline := fun underline overlined => by simp [Overlined, closed] at overlined
  rw [sources]
  generalize nextMove reader.waiting.isSome line rest = move at made ⊢
  cases made with
  | label found => cases plain.symm.trans found
  | blank blank => cases filled.symm.trans blank
  | @heading underline plain filled head underlines =>
    refine ⟨⟨.header none line underline, reader.line, none⟩, ?_, by rintro _ ⟨⟩, rfl⟩
    simp [emitted, apart]
  | table | figure | captured =>
    refine ⟨_, List.mem_append_left _ (List.mem_append_right _ List.mem_cons_self), by rintro _ ⟨⟩, rfl⟩
  | text plain filled =>
    have opened : (reader.next (.text line)).opened = reader.line := if_pos (by simp [closed])
    have still : (reader.next (.text line)).paragraph ≠ [] := by simp [next]
    obtain ⟨source, member, content, first⟩ := exists_opened still (belowMove reader.waiting.isSome line rest)
    exact ⟨source, List.mem_append_right _ member, content, first.trans opened⟩

end Reader

def paragraphLines : List Text → List Text
  | [] => []
  | line :: rest =>
    match nextMove true line rest with
    | .text _ => line :: paragraphLines rest
    | _ => []

def afterParagraph (lines : List Text) : List Text :=
  lines.drop (paragraphLines lines).length

theorem paragraphLines_append (lines : List Text) : paragraphLines lines ++ afterParagraph lines = lines := by
  rw [afterParagraph]
  induction lines with
  | nil => rfl
  | cons line rest ih =>
    rw [paragraphLines]
    split
    · rw [List.length_cons, List.drop_succ_cons, List.cons_append, ih]
    · rfl

theorem anchor?_of_mem_paragraphLines {lines : List Text} {line : Text} (member : line ∈ paragraphLines lines) :
    anchor? line = none := by
  induction lines with
  | nil => cases member
  | cons first rest ih =>
    have made := moveAt_nextMove true first rest
    rw [paragraphLines] at member
    generalize nextMove true first rest = move at made member
    cases made with
    | text plain filled =>
      rcases List.mem_cons.mp member with rfl | member
      · exact plain
      · exact ih member
    | label | heading | table | figure | captured | blank => cases member

theorem nextMove_afterParagraph {lines rest : List Text} {line : Text} (same : afterParagraph lines = line :: rest)
    (text : Text) : nextMove true line rest ≠ .text text := by
  rw [afterParagraph] at same
  induction lines with
  | nil => cases same
  | cons first more ih =>
    rw [paragraphLines] at same
    split at same
    · exact ih same
    · next other =>
      obtain ⟨rfl, rfl⟩ := List.cons.inj same
      exact other text

namespace Reader

structure Reading (reader : Reader) (texts : List Text) (later : Reader) : Prop where
  line : later.line = reader.line + texts.length
  paragraph : later.paragraph = reader.paragraph ++ texts
  waiting : later.waiting = reader.waiting
  previous : later.previous = texts.getLast?.or reader.previous
  continued : reader.paragraph ≠ [] → later.opened = reader.opened
  started : reader.paragraph = [] → texts ≠ [] → later.opened = reader.line

theorem Reading.nil (reader : Reader) : reader.Reading [] reader where
  line := rfl
  paragraph := (List.append_nil _).symm
  waiting := rfl
  previous := rfl
  continued _ := rfl
  started _ some := absurd rfl some

theorem Reading.cons {reader later : Reader} {line : Text} {texts : List Text}
    (reading : (reader.next (.text line)).Reading texts later) : reader.Reading (line :: texts) later where
  line := by
    rw [reading.line, line_next, List.length_cons, Move.lines, List.length_singleton]
    omega
  paragraph := by
    rw [reading.paragraph, next, List.append_assoc]
    rfl
  waiting := reading.waiting
  previous := by
    rw [reading.previous, List.getLast?_cons]
    cases texts.getLast? <;> rfl
  continued filled := by
    rw [reading.continued (by simp [next])]
    exact if_neg (by simpa using filled)
  started closed _ := by
    rw [reading.continued (by simp [next])]
    exact if_pos (by simp [closed])

theorem exists_reading {reader : Reader} (waits : reader.waiting.isSome = true) (lines : List Text) :
    ∃ later, reader.Reading (paragraphLines lines) later ∧ reader.sources lines = later.sources (afterParagraph lines) := by
  rw [afterParagraph]
  induction lines generalizing reader with
  | nil => exact ⟨reader, .nil reader, rfl⟩
  | cons line rest ih =>
    have made := moveAt_nextMove true line rest
    rw [paragraphLines]
    cases move : nextMove true line rest with
    | text text =>
      rw [move] at made
      cases made
      have still : (reader.next (.text line)).waiting.isSome = true := waits
      obtain ⟨later, reading, same⟩ := ih still
      refine ⟨later, reading.cons, ?_⟩
      rw [sources, waits, belowMove, move]
      exact same
    | label | heading | table | figure | captured | blank => exact ⟨reader, .nil reader, rfl⟩

theorem exists_skipped {reader : Reader} (closed : reader.paragraph = []) (lines : List Text) :
    ∃ later : Reader, later.line = reader.line + (lines.takeWhile isBlank).length ∧ later.paragraph = [] ∧
      later.waiting = reader.waiting ∧ reader.sources lines = later.sources (lines.dropWhile isBlank) := by
  induction lines generalizing reader with
  | nil => exact ⟨reader, rfl, closed, rfl, rfl⟩
  | cons line rest ih =>
    cases blank : isBlank line with
    | false =>
      rw [List.takeWhile_cons_of_neg (by simp [blank]), List.dropWhile_cons_of_neg (by simp [blank])]
      exact ⟨reader, rfl, closed, rfl, rfl⟩
    | true =>
      obtain ⟨silent, after⟩ := blank_of_closed closed line
      have empty : (reader.next (.blank line)).paragraph = [] := by rw [after]
      obtain ⟨later, below, still, waiting, same⟩ := ih empty
      rw [List.takeWhile_cons_of_pos blank, List.dropWhile_cons_of_pos blank]
      refine ⟨later, ?_, still, ?_, ?_⟩
      · rw [below, line_next, List.length_cons, Move.lines, List.length_singleton]
        omega
      · rw [waiting, after]
      · rw [sources, nextMove_of_blank _ blank, belowMove, nextMove_of_blank _ blank, silent]
        exact same

end Reader
end DocPress.Document
