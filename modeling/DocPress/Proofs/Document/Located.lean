import DocPress.Proofs.Document.Cut
import DocPress.Proofs.Document.Labels

namespace DocPress.Document
open Text Markup Heading

def Block.firstLine? : Block → Option Text
  | .header overline title _ => overline.or (some title)
  | .label _ => none
  | .paragraph lines | .table lines _ | .figure lines _ => lines.head?

structure Located (lines : List Text) (source : Source) : Prop where
  first : source.IsContent → ∃ line, lines[source.first]? = some line ∧ source.block.firstLine? = some line
  label : ∀ k, source.label = some k → (lines[k]?).bind Markup.anchor? = source.block.anchor?
  carries : source.block.anchor?.isSome = source.label.isSome

structure Reader.Placed (lines : List Text) (reader : Reader) (rest : List Text) : Prop where
  rest : lines.drop reader.line = rest
  opened : reader.paragraph ≠ [] → lines[reader.opened]? = reader.paragraph.head?
  waiting : ∀ label, reader.waiting = some label → (lines[label.line]?).bind Markup.anchor? = some label.anchor

theorem head?_dropEndWhile {α : Type} {p : α → Bool} {a : α} (kept : p a = false) (l : List α) :
    (dropEndWhile p (a :: l)).head? = some a := by
  rw [dropEndWhile]
  split
  · rw [kept]
    rfl
  · rfl

namespace Reader
variable {lines : List Text} {reader : Reader} {line : Text} {rest : List Text} {move : Move} {source : Source}

theorem Placed.located_flushed (placed : reader.Placed lines rest) (member : source ∈ reader.flushed) :
    Located lines source := by
  obtain ⟨filled, rfl⟩ := mem_flushed member
  obtain ⟨first, more, paragraph⟩ := List.exists_cons_of_ne_nil filled
  refine ⟨fun _ => ⟨first, ?_, ?_⟩, by rintro _ ⟨⟩, rfl⟩
  · rw [placed.opened filled, paragraph]
    rfl
  · rw [Block.firstLine?, paragraph]
    rfl

theorem Placed.located_placed (placed : reader.Placed lines rest) (member : source ∈ reader.placed) :
    Located lines source := by
  obtain ⟨label, waits, rfl⟩ := mem_placed member
  refine ⟨fun content => absurd content (not_isContent_labelSource _ _), fun k same => ?_, rfl⟩
  cases same
  exact placed.waiting label waits

theorem Placed.here (placed : reader.Placed lines (line :: rest)) : lines[reader.line]? = some line := by
  have head := congrArg (fun rest : List Text => rest[0]?) placed.rest
  simpa using head

theorem Placed.carried (placed : reader.Placed lines rest) (k : Nat) (same : reader.labelLine? = some k) :
    (lines[k]?).bind Markup.anchor? = reader.anchor? := by
  obtain ⟨label, waits, rfl⟩ := Option.map_eq_some_iff.mp same
  rw [placed.waiting label waits, anchor?, waits]
  rfl

theorem Placed.located_emitted (placed : reader.Placed lines (line :: rest)) {waiting : Bool}
    (made : MoveAt waiting line rest move) (member : source ∈ reader.emitted move) : Located lines source := by
  have here := placed.here
  have carries : reader.anchor?.isSome = reader.labelLine?.isSome := by rw [anchor?, labelLine?]; simp
  cases made with
  | label found => exact placed.located_placed member
  | @heading underline plain filled head underlines =>
    rcases List.mem_append.mp member with member | member
    · split at member
      · next overlined =>
        obtain rfl := List.mem_singleton.mp member
        have opened := placed.opened (by simp [overlined.1])
        rw [overlined.1] at opened
        exact ⟨fun _ => ⟨underline, opened, rfl⟩, by rintro _ ⟨⟩, rfl⟩
      · rcases List.mem_append.mp member with member | member
        · exact placed.located_flushed member
        · obtain rfl := List.mem_singleton.mp member
          exact ⟨fun _ => ⟨line, here, rfl⟩, by rintro _ ⟨⟩, rfl⟩
    · exact placed.located_placed member
  | table | figure =>
    rcases List.mem_append.mp member with member | member
    · exact placed.located_flushed member
    · obtain rfl := List.mem_singleton.mp member
      exact ⟨fun _ => ⟨line, here, rfl⟩, placed.carried, carries⟩
  | captured plain found =>
    rcases List.mem_append.mp member with member | member
    · exact placed.located_flushed member
    · rcases List.mem_cons.mp member with rfl | member
      · exact ⟨fun _ => ⟨line, here, head?_dropEndWhile (isBlank_of_captured found) _⟩, by rintro _ ⟨⟩, rfl⟩
      · exact placed.located_placed member
  | blank blank =>
    rw [emitted] at member
    split at member
    · cases member
    · exact (List.mem_append.mp member).elim placed.located_flushed placed.located_placed
  | text => cases member

theorem Placed.next (placed : reader.Placed lines (line :: rest)) :
    (reader.next (nextMove reader.waiting.isSome line rest)).Placed lines (belowMove reader.waiting.isSome line rest) := by
  have here := placed.here
  have made := moveAt_nextMove reader.waiting.isSome line rest
  have whole := placed.rest
  rw [← lines_nextMove reader.waiting.isSome line rest] at whole
  have below := drop_skipped whole
  rw [← line_next] at below
  generalize nextMove reader.waiting.isSome line rest = move at made below ⊢
  cases made with
  | label found =>
    refine ⟨below, placed.opened, fun label waits => ?_⟩
    cases waits
    rw [here]
    exact found
  | heading | table | figure | captured => exact ⟨below, fun filled => absurd rfl filled, by rintro _ ⟨⟩⟩
  | blank blank =>
    by_cases closed : reader.paragraph = []
    · rw [(blank_of_closed closed line).2] at below ⊢
      exact ⟨below, fun filled => absurd rfl filled, placed.waiting⟩
    · rw [(blank_of_open closed line).2] at below ⊢
      exact ⟨below, fun filled => absurd rfl filled, by rintro _ ⟨⟩⟩
  | text plain filled =>
    refine ⟨below, fun _ => ?_, placed.waiting⟩
    cases paragraph : reader.paragraph with
    | nil => simp [Reader.next, paragraph, here]
    | cons first more =>
      have opened := placed.opened (by simp [paragraph])
      rw [paragraph] at opened
      simpa [Reader.next, paragraph] using opened

theorem Placed.located_sources (placed : reader.Placed lines rest) (member : source ∈ reader.sources rest) :
    Located lines source := by
  induction reader, rest using sources.induct with
  | case1 reader =>
    rw [sources] at member
    exact (List.mem_append.mp member).elim placed.located_flushed placed.located_placed
  | case2 reader line rest move ih =>
    rw [sources] at member
    rcases List.mem_append.mp member with member | member
    · exact placed.located_emitted (moveAt_nextMove _ line rest) member
    · exact ih placed.next member

end Reader

theorem located_sources {lines : List Text} {source : Source} (member : source ∈ sources lines) :
    Located (lines.map trimEnd) source := by
  have start : Reader.Placed (lines.map trimEnd) {} (lines.map trimEnd) :=
    ⟨rfl, fun filled => absurd rfl filled, by rintro _ ⟨⟩⟩
  exact start.located_sources member

def Ordered (sources : List Source) : Prop :=
  sources.Pairwise fun above below => above.IsContent → below.IsContent → above.first < below.first

namespace Reader
variable {reader : Reader} {move : Move} {source : Source}

theorem closed_of_content (member : source ∈ reader.emitted move) (content : source.IsContent) :
    (reader.next move).paragraph = [] := by
  cases move with
  | heading | table | figure | captured => rfl
  | blank line =>
    rw [next]
    split <;> rfl
  | label line anchor => exact absurd content (not_isContent_of_placed member)
  | text line => cases member

theorem ordered_of_labels {sources : List Source} (labels : ∀ source ∈ sources, ¬source.IsContent) :
    Ordered sources :=
  List.pairwise_of_forall_mem_list fun _ _ other member _ content => absurd content (labels other member)

theorem ordered_placed (reader : Reader) : Ordered reader.placed :=
  ordered_of_labels fun _ => not_isContent_of_placed

theorem ordered_flushed (reader : Reader) : Ordered reader.flushed := by
  by_cases closed : reader.paragraph = []
  · rw [flushed_of_closed closed]
    exact .nil
  · rw [flushed_of_open closed]
    exact List.pairwise_singleton _ _

theorem ordered_finish (reader : Reader) : Ordered (reader.flushed ++ reader.placed) :=
  List.pairwise_append.mpr ⟨reader.ordered_flushed, reader.ordered_placed,
    fun _ _ _ member _ content => absurd content (not_isContent_of_placed member)⟩

theorem ordered_block (sound : reader.Sound) (first : source.first = reader.line) {tail : List Source}
    (labels : ∀ other ∈ tail, ¬other.IsContent) : Ordered (reader.flushed ++ source :: tail) := by
  refine List.pairwise_append.mpr ⟨reader.ordered_flushed, List.pairwise_cons.mpr ⟨?_, ordered_of_labels labels⟩, ?_⟩
  · exact fun other member _ content => absurd content (labels other member)
  · intro above member below among _ content
    obtain ⟨filled, rfl⟩ := mem_flushed member
    rcases List.mem_cons.mp among with rfl | among
    · rw [first]
      exact sound.opened filled
    · exact absurd content (labels below among)

theorem ordered_emitted (sound : reader.Sound) (move : Move) : Ordered (reader.emitted move) := by
  cases move with
  | label line anchor => exact reader.ordered_placed
  | heading title underline =>
    rw [emitted]
    split
    · exact List.pairwise_cons.mpr ⟨fun other member _ content => absurd content (not_isContent_of_placed member),
        reader.ordered_placed⟩
    · rw [List.append_assoc]
      exact ordered_block sound rfl fun _ => not_isContent_of_placed
  | table block | figure lines => exact ordered_block sound rfl fun _ member => absurd member List.not_mem_nil
  | captured lines => exact ordered_block sound rfl fun _ => not_isContent_of_placed
  | blank line =>
    rw [emitted]
    split
    · exact .nil
    · exact reader.ordered_finish
  | text line => exact .nil

theorem Sound.ordered_sources (sound : reader.Sound) (lines : List Text) : Ordered (reader.sources lines) := by
  induction reader, lines using sources.induct with
  | case1 reader =>
    rw [sources]
    exact reader.ordered_finish
  | case2 reader line rest move ih =>
    have next := sound.next (lines_ne_nil reader.waiting.isSome line rest)
    rw [sources]
    refine List.pairwise_append.mpr ⟨ordered_emitted sound move, ih next, ?_⟩
    intro above member below among content later
    have up := (before_emitted sound member).1
    rcases starts_sources among later with ⟨filled, _⟩ | after
    · exact absurd (closed_of_content member content) filled
    · refine up.trans_lt (Nat.lt_of_lt_of_le ?_ after)
      rw [line_next]
      exact Nat.lt_add_of_pos_right (List.length_pos_of_ne_nil (lines_ne_nil _ _ _))

end Reader

theorem ordered_sources (lines : List Text) : Ordered (sources lines) :=
  Reader.sound_start.ordered_sources _

end DocPress.Document
