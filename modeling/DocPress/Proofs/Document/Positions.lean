import DocPress.Proofs.Document.Sources

namespace DocPress.Document
open Text Markup Heading

def Source.IsContent (source : Source) : Prop :=
  ∀ anchor, source.block ≠ .label anchor

theorem drop_skipped {lines skipped more : List Text} {n : Nat} (rest : lines.drop n = skipped ++ more) :
    lines.drop (n + skipped.length) = more := by
  rw [← List.drop_drop, rest, List.drop_left]

theorem not_isContent_labelSource (anchor : Text) (line : Nat) : ¬(labelSource anchor line).IsContent :=
  fun content => content anchor rfl

namespace Reader
variable {reader : Reader} {move : Move} {source : Source} {k : Nat}

theorem flushed_of_closed (closed : reader.paragraph = []) : reader.flushed = [] := by
  rw [flushed, closed]
  rfl

theorem flushed_of_open (filled : reader.paragraph ≠ []) :
    reader.flushed = [⟨.paragraph reader.paragraph, reader.opened, none⟩] := by
  rw [flushed, if_neg (by simpa using filled)]

theorem mem_flushed (member : source ∈ reader.flushed) :
    reader.paragraph ≠ [] ∧ source = ⟨.paragraph reader.paragraph, reader.opened, none⟩ := by
  by_cases closed : reader.paragraph = []
  · rw [flushed_of_closed closed] at member
    cases member
  · rw [flushed_of_open closed] at member
    exact ⟨closed, List.mem_singleton.mp member⟩

theorem mem_placed (member : source ∈ reader.placed) :
    ∃ label, reader.waiting = some label ∧ source = labelSource label.anchor label.line := by
  obtain ⟨label, waits, rfl⟩ := List.mem_map.mp member
  exact ⟨label, Option.mem_toList.mp waits, rfl⟩

theorem not_isContent_of_placed (member : source ∈ reader.placed) : ¬source.IsContent := by
  obtain ⟨label, _, rfl⟩ := mem_placed member
  exact not_isContent_labelSource _ _

theorem blank_of_closed (closed : reader.paragraph = []) (line : Text) : reader.emitted (.blank line) = [] ∧
    reader.next (.blank line) = { line := reader.line + 1, previous := some line, waiting := reader.waiting } := by
  have empty : reader.paragraph.isEmpty = true := by simp [closed]
  exact ⟨if_pos empty, if_pos empty⟩

theorem blank_of_open (filled : reader.paragraph ≠ []) (line : Text) :
    reader.emitted (.blank line) = reader.flushed ++ reader.placed ∧
      reader.next (.blank line) = { line := reader.line + 1, previous := some line } := by
  have shown : ¬reader.paragraph.isEmpty = true := by simpa using filled
  exact ⟨if_neg shown, if_neg shown⟩

theorem mem_emitted (member : source ∈ reader.emitted move) :
    (reader.paragraph ≠ [] ∧ source.first = reader.opened ∧ source.label = none) ∨
      (source.first = reader.line ∧ (source.label = none ∨ source.label = reader.labelLine?)) ∨
      source ∈ reader.placed := by
  have open_paragraph : source ∈ reader.flushed →
      reader.paragraph ≠ [] ∧ source.first = reader.opened ∧ source.label = none := by
    intro member
    obtain ⟨filled, rfl⟩ := mem_flushed member
    exact ⟨filled, rfl, rfl⟩
  cases move with
  | label line anchor => exact .inr (.inr member)
  | heading title underline =>
    rw [emitted, List.mem_append] at member
    rcases member with member | member
    · split at member
      · next overlined =>
        obtain rfl := List.mem_singleton.mp member
        exact .inl ⟨by simp [overlined.1], rfl, rfl⟩
      · rcases List.mem_append.mp member with member | member
        · exact .inl (open_paragraph member)
        · obtain rfl := List.mem_singleton.mp member
          exact .inr (.inl ⟨rfl, .inl rfl⟩)
    · exact .inr (.inr member)
  | table block | figure lines =>
    rcases List.mem_append.mp member with member | member
    · exact .inl (open_paragraph member)
    · obtain rfl := List.mem_singleton.mp member
      exact .inr (.inl ⟨rfl, .inr rfl⟩)
  | captured lines =>
    rcases List.mem_append.mp member with member | member
    · exact .inl (open_paragraph member)
    · rcases List.mem_cons.mp member with rfl | member
      · exact .inr (.inl ⟨rfl, .inl rfl⟩)
      · exact .inr (.inr member)
  | blank line =>
    rw [emitted] at member
    split at member
    · cases member
    · rcases List.mem_append.mp member with member | member
      · exact .inl (open_paragraph member)
      · exact .inr (.inr member)
  | text line => cases member

def Starts (reader : Reader) (k : Nat) : Prop :=
  (reader.paragraph ≠ [] ∧ k = reader.opened) ∨ reader.line ≤ k

def Awaits (reader : Reader) (k : Nat) : Prop :=
  reader.labelLine? = some k ∨ reader.line ≤ k

theorem starts_emitted (member : source ∈ reader.emitted move) (content : source.IsContent) :
    reader.Starts source.first := by
  rcases mem_emitted member with ⟨filled, first, _⟩ | ⟨first, _⟩ | member
  · exact .inl ⟨filled, first⟩
  · exact .inr first.ge
  · exact absurd content (not_isContent_of_placed member)

theorem awaits_emitted (member : source ∈ reader.emitted move) (label : source.label = some k) : reader.Awaits k := by
  rcases mem_emitted member with ⟨_, _, none⟩ | ⟨_, none | carried⟩ | member
  · cases none.symm.trans label
  · cases none.symm.trans label
  · exact .inl (carried.symm.trans label)
  · obtain ⟨waiting, waits, rfl⟩ := mem_placed member
    cases label
    exact .inl (by rw [labelLine?, waits]; rfl)

@[simp]
theorem line_next (reader : Reader) (move : Move) : (reader.next move).line = reader.line + move.lines.length := by
  cases move with
  | blank line =>
    rw [next]
    split <;> rfl
  | label | heading | table | figure | captured | text => rfl

theorem opened_next (filled : (reader.next move).paragraph ≠ []) :
    (reader.paragraph ≠ [] ∧ (reader.next move).opened = reader.opened) ∨ (reader.next move).opened = reader.line := by
  cases move with
  | label line anchor => exact .inl ⟨filled, rfl⟩
  | heading | table | figure | captured => exact absurd rfl filled
  | blank line =>
    rw [next] at filled
    split at filled <;> exact absurd rfl filled
  | text line =>
    by_cases empty : reader.paragraph.isEmpty
    · exact .inr (if_pos empty)
    · exact .inl ⟨by simpa using empty, if_neg empty⟩

theorem labelLine?_next (waits : (reader.next move).labelLine? = some k) :
    reader.labelLine? = some k ∨ k = reader.line := by
  cases move with
  | label line anchor => exact .inr (Option.some.inj waits).symm
  | heading | table | figure | captured => cases waits
  | blank line =>
    rw [next] at waits
    split at waits
    · exact .inl waits
    · cases waits
  | text line => exact .inl waits

theorem starts_next (starts : (reader.next move).Starts k) : reader.Starts k := by
  rcases starts with ⟨filled, rfl⟩ | after
  · rcases opened_next filled with ⟨before, same⟩ | here
    · exact .inl ⟨before, same⟩
    · exact .inr here.ge
  · rw [line_next] at after
    exact .inr ((Nat.le_add_right _ _).trans after)

theorem awaits_next (awaits : (reader.next move).Awaits k) : reader.Awaits k := by
  rcases awaits with waits | after
  · exact (labelLine?_next waits).imp_right Eq.ge
  · rw [line_next] at after
    exact .inr ((Nat.le_add_right _ _).trans after)

theorem starts_sources {lines : List Text} (member : source ∈ reader.sources lines) (content : source.IsContent) :
    reader.Starts source.first := by
  induction reader, lines using sources.induct with
  | case1 reader =>
    rw [sources] at member
    rcases List.mem_append.mp member with member | member
    · obtain ⟨filled, rfl⟩ := mem_flushed member
      exact .inl ⟨filled, rfl⟩
    · exact absurd content (not_isContent_of_placed member)
  | case2 reader line rest move ih =>
    rw [sources] at member
    rcases List.mem_append.mp member with member | member
    · exact starts_emitted member content
    · exact starts_next (ih member)

theorem awaits_sources {lines : List Text} (member : source ∈ reader.sources lines) (label : source.label = some k) :
    reader.Awaits k := by
  induction reader, lines using sources.induct with
  | case1 reader =>
    rw [sources] at member
    rcases List.mem_append.mp member with member | member
    · obtain ⟨_, rfl⟩ := mem_flushed member
      cases label
    · obtain ⟨waiting, waits, rfl⟩ := mem_placed member
      cases label
      exact .inl (by rw [labelLine?, waits]; rfl)
  | case2 reader line rest move ih =>
    rw [sources] at member
    rcases List.mem_append.mp member with member | member
    · exact awaits_emitted member label
    · exact awaits_next (ih member)

end Reader

end DocPress.Document
