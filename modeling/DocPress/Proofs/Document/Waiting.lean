import DocPress.Proofs.Document.Attachment
import DocPress.Proofs.Document.Scan

namespace DocPress.Document
open Text Markup Heading

section
variable {lines : List Text} {i n : Nat}

theorem Unlabeled.skip {skipped more : List Text} (unlabeled : Unlabeled lines i n)
    (rest : lines.drop n = skipped ++ more) (plain : ∀ line ∈ skipped, anchor? line = none) :
    Unlabeled lines i (n + skipped.length) := by
  intro k line below above at_k
  rcases Nat.lt_or_ge k n with before | after
  · exact unlabeled k line below before at_k
  · have member : skipped[k - n]? = some line := by
      have shifted := congrArg (fun rest : List Text => rest[k - n]?) rest
      simp only [List.getElem?_drop, Nat.add_sub_cancel' after, at_k] at shifted
      rw [shifted, List.getElem?_append_left (by omega)]
    exact plain line (List.mem_of_getElem? member)

theorem not_unlabeled {label anchor : Text} {more : List Text} {j : Nat} (rest : lines.drop n = label :: more)
    (found : anchor? label = some anchor) (below : i < n) (above : n < j) : ¬Unlabeled lines i j := by
  intro unlabeled
  have at_n : lines[n]? = some label := by
    have head := congrArg (fun rest : List Text => rest[0]?) rest
    simpa using head
  rw [unlabeled n label below above at_n] at found
  cases found

end

/-- The label on line `i` waits at a reader that has given `earlier` and has `rest` before it. -/
structure Waits (lines : List Text) (i : Nat) (anchor : Text) (earlier : List Source) (reader : Reader)
    (rest : List Text) : Prop where
  waiting : reader.waiting = some ⟨anchor, i⟩
  below : i < reader.line
  rest : lines.drop reader.line = rest
  unlabeled : Unlabeled lines i reader.line
  above : ∀ source ∈ earlier, source.first < i
  label : ∀ source ∈ earlier, source.label ≠ some i

section
variable {lines : List Text} {i : Nat} {anchor : Text} {earlier : List Source} {reader : Reader} {rest : List Text}

theorem Waits.placed (waits : Waits lines i anchor earlier reader rest) :
    reader.placed = [labelSource anchor i] := by
  rw [Reader.placed, waits.waiting]
  rfl

theorem Waits.isSome (waits : Waits lines i anchor earlier reader rest) : reader.waiting.isSome = true := by
  rw [waits.waiting]
  rfl

theorem Waits.below_next (waits : Waits lines i anchor earlier reader rest) (move : Move) :
    i < (reader.next move).line := by
  rw [Reader.line_next]
  exact waits.below.trans_le (Nat.le_add_right _ _)

theorem later_of_free {after : Reader} (closed : after.paragraph = []) (free : after.waiting = none)
    (below : i < after.line) (lines : List Text) :
    ∀ source ∈ after.sources lines, source.label ≠ some i ∧ (source.IsContent → i < source.first) := by
  intro source member
  constructor
  · intro label
    rcases Reader.awaits_sources member label with waits | after_line
    · rw [Reader.labelLine?, free] at waits
      cases waits
    · exact absurd below (Nat.not_lt.mpr after_line)
  · intro content
    rcases Reader.starts_sources member content with ⟨filled, _⟩ | after_line
    · exact absurd closed filled
    · exact below.trans_le after_line

theorem Waits.flushed_label (waits : Waits lines i anchor earlier reader rest) :
    ∀ source ∈ earlier ++ reader.flushed, source.label ≠ some i := by
  intro source member
  rcases List.mem_append.mp member with member | member
  · exact waits.label source member
  · obtain ⟨_, rfl⟩ := Reader.mem_flushed member
    exact (Option.some_ne_none i).symm

theorem Waits.flushed_above_iff (waits : Waits lines i anchor earlier reader rest) :
    (∀ other ∈ earlier ++ reader.flushed, other.IsContent → other.first ≤ i) ↔
      (reader.paragraph ≠ [] → reader.opened ≤ i) := by
  constructor
  · intro above filled
    refine above ⟨.paragraph reader.paragraph, reader.opened, none⟩ ?_ (by rintro _ ⟨⟩)
    simp [Reader.flushed_of_open filled]
  · intro above other member _
    rcases List.mem_append.mp member with member | member
    · exact (waits.above other member).le
    · obtain ⟨filled, rfl⟩ := Reader.mem_flushed member
      exact above filled

theorem Waits.followed_iff (waits : Waits lines i anchor earlier reader rest) {move : Move} (source : Source)
    (emitted : reader.emitted move = reader.flushed ++ source :: reader.placed) (carrier : ¬source.block.IsCarrier)
    (content : source.IsContent) (first : source.first = reader.line) (label : source.label = none)
    (closed : (reader.next move).paragraph = []) (free : (reader.next move).waiting = none) (below : List Text) :
    Attached lines i anchor (earlier ++ (reader.emitted move ++ (reader.next move).sources below)) ↔
      (reader.paragraph ≠ [] → reader.opened ≤ i) := by
  have later := later_of_free closed free (waits.below_next move) below
  have shape : earlier ++ (reader.emitted move ++ (reader.next move).sources below) =
      (earlier ++ reader.flushed) ++ source :: labelSource anchor i :: (reader.next move).sources below := by
    rw [emitted, waits.placed]
    simp
  rw [shape, attached_followed_iff carrier (first ▸ waits.below) (first ▸ waits.unlabeled) content ?_
    fun other member content => ((later other member).2 content).le]
  · exact waits.flushed_above_iff
  · intro other member
    rcases List.mem_append.mp member with member | member
    · exact waits.flushed_label other member
    · rcases List.mem_cons.mp member with rfl | member
      · rw [label]
        exact (Option.some_ne_none i).symm
      · exact (later other member).1

theorem Waits.carried_iff (waits : Waits lines i anchor earlier reader rest) {move : Move} (block : Block)
    (emitted : reader.emitted move = reader.flushed ++ [⟨block, reader.line, reader.labelLine?⟩])
    (carrier : block.IsCarrier) (carries : block.anchor? = reader.anchor?)
    (closed : (reader.next move).paragraph = []) (free : (reader.next move).waiting = none) (below : List Text) :
    Attached lines i anchor (earlier ++ (reader.emitted move ++ (reader.next move).sources below)) ↔
      (reader.paragraph ≠ [] → reader.opened ≤ i) := by
  have later := later_of_free closed free (waits.below_next move) below
  have content : (⟨block, reader.line, reader.labelLine?⟩ : Source).IsContent := by
    rintro anchor rfl
    exact carrier
  have shape : earlier ++ (reader.emitted move ++ (reader.next move).sources below) =
      (earlier ++ reader.flushed) ++ ⟨block, reader.line, reader.labelLine?⟩ :: (reader.next move).sources below := by
    rw [emitted]
    simp
  rw [shape, attached_carried_iff carrier (by rw [carries, Reader.anchor?, waits.waiting]; rfl)
    (by rw [Reader.labelLine?, waits.waiting]; rfl) waits.below waits.unlabeled content ?_]
  · exact waits.flushed_above_iff
  · intro other member
    rcases List.mem_append.mp member with member | member
    · exact waits.flushed_label other member
    · exact (later other member).1

def Move.IsBlock : Move → Prop
  | .heading .. | .table _ | .figure _ | .captured _ => True
  | .label .. | .blank _ | .text _ => False

theorem Waits.sources_cons {line : Text} {more : List Text} (waits : Waits lines i anchor earlier reader (line :: more)) :
    reader.sources (line :: more) = reader.emitted (nextMove true line more) ++
      (reader.next (nextMove true line more)).sources (belowMove true line more) := by
  rw [Reader.sources, waits.waiting]
  rfl

theorem Waits.block_iff {line : Text} {more : List Text} (waits : Waits lines i anchor earlier reader (line :: more))
    (block : (nextMove true line more).IsBlock)
    (apart : ∀ title underline, nextMove true line more = .heading title underline → ¬reader.Overlined underline) :
    Attached lines i anchor (earlier ++ reader.sources (line :: more)) ↔
      (reader.paragraph ≠ [] → reader.opened ≤ i) := by
  have made := moveAt_nextMove true line more
  rw [waits.sources_cons]
  generalize nextMove true line more = move at made block apart ⊢
  cases made with
  | @heading underline =>
    refine waits.followed_iff ⟨.header none line underline, reader.line, none⟩ ?_ id (by rintro _ ⟨⟩) rfl rfl rfl rfl _
    rw [Reader.emitted, if_neg (apart _ _ rfl), List.append_assoc]
    rfl
  | table => exact waits.carried_iff (.table _ reader.anchor?) rfl trivial rfl rfl rfl _
  | figure => exact waits.carried_iff (.figure _ reader.anchor?) rfl trivial rfl rfl rfl _
  | captured => exact waits.followed_iff ⟨.paragraph _, reader.line, none⟩ rfl id (by rintro _ ⟨⟩) rfl rfl rfl rfl _
  | label | blank | text => exact block.elim

def Waits.Fair (lines : List Text) (i : Nat) (reader : Reader) : Prop :=
  reader.opened < i ∨ (i < reader.opened ∧ Unlabeled lines i reader.opened)

theorem Waits.overlined {line underline : Text} {more : List Text}
    (waits : Waits lines i anchor earlier reader (line :: more)) (move : nextMove true line more = .heading line underline)
    (overlined : reader.Overlined underline) (below : i < reader.opened) (unlabeled : Unlabeled lines i reader.opened) :
    Attached lines i anchor (earlier ++ reader.sources (line :: more)) := by
  have later : ∀ source ∈ (reader.next (.heading line underline)).sources (belowMove true line more),
      source.label ≠ some i ∧ (source.IsContent → i < source.first) :=
    later_of_free rfl rfl (waits.below_next _) _
  have content : (⟨.header (some underline) line underline, reader.opened, none⟩ : Source).IsContent := by
    rintro _ ⟨⟩
  rw [waits.sources_cons, move, Reader.emitted, if_pos overlined, waits.placed]
  refine (attached_followed_iff id below unlabeled content ?_ fun other member content =>
    ((later other member).2 content).le).mpr fun other member _ => (waits.above other member).le
  intro other member
  rcases List.mem_append.mp member with member | member
  · exact waits.label other member
  · rcases List.mem_cons.mp member with rfl | member
    · exact (Option.some_ne_none i).symm
    · exact (later other member).1

theorem Waits.label_iff {line : Text} {more : List Text} (waits : Waits lines i anchor earlier reader (line :: more))
    {next : Text} (move : nextMove true line more = .label line next)
    (fair : reader.paragraph ≠ [] → Waits.Fair lines i reader) :
    Attached lines i anchor (earlier ++ reader.sources (line :: more)) ↔ reader.paragraph = [] := by
  have found : anchor? line = some next := by
    have made := moveAt_nextMove true line more
    rw [move] at made
    cases made with
    | label found => exact found
  have unique : ∀ other ∈ earlier ++ (reader.next (.label line next)).sources (belowMove true line more),
      other.label ≠ some i := by
    intro other member label
    rcases List.mem_append.mp member with member | member
    · exact waits.label other member label
    · have here := waits.below
      rcases Reader.awaits_sources member label with same | after
      · cases same
        exact Nat.lt_irrefl _ here
      · exact absurd (waits.below_next _) (Nat.not_lt.mpr after)
  rw [waits.sources_cons, move, Reader.emitted, waits.placed, List.singleton_append,
    attached_placed_iff (fun other member => (waits.above other member).le) unique]
  constructor
  · intro after
    by_contra filled
    have still : (reader.next (.label line next)).paragraph ≠ [] := filled
    obtain ⟨source, member, content, first⟩ := Reader.exists_opened still (belowMove true line more)
    obtain ⟨started, reached⟩ := after source member content
    rw [show source.first = reader.opened from first] at started reached
    rcases fair filled with above | ⟨below, unlabeled⟩
    · exact absurd above (Nat.not_lt.mpr started)
    · exact reached below unlabeled
  · intro closed other member content
    rcases Reader.starts_sources member content with ⟨filled, _⟩ | after
    · exact absurd closed filled
    · rw [Reader.line_next] at after
      have here : reader.line < other.first := Nat.lt_of_succ_le after
      exact ⟨(waits.below.trans here).le, fun _ => not_unlabeled waits.rest found waits.below here⟩

theorem Waits.flushed_iff (waits : Waits lines i anchor earlier reader rest) (filled : reader.paragraph ≠ [])
    (fair : Waits.Fair lines i reader) {later : List Source}
    (free : ∀ source ∈ later, source.label ≠ some i ∧ (source.IsContent → i < source.first)) :
    Attached lines i anchor (earlier ++ (reader.flushed ++ reader.placed ++ later)) ↔
      (reader.opened < i → ∀ other ∈ later, other.IsContent → ¬Unlabeled lines i other.first) := by
  have flushed := Reader.flushed_of_open filled
  have unique : ∀ other ∈ earlier ++ reader.flushed ++ later, other.label ≠ some i := by
    intro other member
    rcases List.mem_append.mp member with member | member
    · exact waits.flushed_label other member
    · exact (free other member).1
  rw [waits.placed]
  -- a paragraph from above the label is no block for it, one from below is its block
  rcases fair with above | ⟨below, unlabeled⟩
  · have shape : earlier ++ (reader.flushed ++ [labelSource anchor i] ++ later) =
        earlier ++ reader.flushed ++ labelSource anchor i :: later := by simp
    have earlier_above : ∀ other ∈ earlier ++ reader.flushed, other.first ≤ i := by
      intro other member
      rcases List.mem_append.mp member with member | member
      · exact (waits.above other member).le
      · obtain ⟨_, rfl⟩ := Reader.mem_flushed member
        exact above.le
    rw [shape, attached_placed_iff earlier_above unique]
    constructor
    · exact fun after _ other member content => (after other member content).2 ((free other member).2 content)
    · exact fun silent other member content =>
        ⟨((free other member).2 content).le, fun _ => silent above other member content⟩
  · have shape : earlier ++ (reader.flushed ++ [labelSource anchor i] ++ later) =
        earlier ++ ⟨.paragraph reader.paragraph, reader.opened, none⟩ :: labelSource anchor i :: later := by
      rw [flushed]
      simp
    rw [flushed, List.append_assoc, List.singleton_append] at unique
    have content : (⟨.paragraph reader.paragraph, reader.opened, none⟩ : Source).IsContent := by
      rintro _ ⟨⟩
    rw [shape, attached_followed_iff id below unlabeled content unique
      fun other member content => ((free other member).2 content).le]
    exact ⟨fun _ above => absurd above (Nat.lt_asymm below), fun _ other member _ => (waits.above other member).le⟩

theorem Waits.attached_nil (waits : Waits lines i anchor earlier reader [])
    (fair : reader.paragraph ≠ [] → Waits.Fair lines i reader) :
    Attached lines i anchor (earlier ++ reader.sources []) := by
  rw [Reader.sources]
  by_cases filled : reader.paragraph = []
  · rw [Reader.flushed_of_closed filled, waits.placed]
    refine (attached_placed_iff (fun other member => (waits.above other member).le) ?_).mpr fun _ member =>
      absurd member List.not_mem_nil
    rw [List.append_nil]
    exact waits.label
  · rw [← List.append_nil (reader.flushed ++ reader.placed)]
    refine (waits.flushed_iff filled (fair filled) fun _ member => absurd member List.not_mem_nil).mpr ?_
    exact fun _ _ member => absurd member List.not_mem_nil

/-- Whether no block starts before the next label. -/
def isVacant (lines : List Text) : Bool :=
  (lines.dropWhile isBlank).head?.all fun line => (anchor? line).isSome

theorem silent_iff {next : Text} {more : List Text} (closed : reader.paragraph = []) (free : reader.waiting = none)
    (visible : isBlank next = false) (below : i < reader.line) (at_next : lines.drop reader.line = next :: more)
    (unlabeled : Unlabeled lines i reader.line) :
    (∀ other ∈ reader.sources (next :: more), other.IsContent → ¬Unlabeled lines i other.first) ↔
      (anchor? next).isSome = true := by
  cases found : anchor? next with
  | some label =>
    refine iff_of_true (fun other member content => ?_) rfl
    rw [Reader.sources, nextMove_of_label _ found, Reader.emitted, Reader.placed, free] at member
    rcases Reader.starts_sources member content with ⟨open_paragraph, _⟩ | after
    · exact absurd closed open_paragraph
    · rw [Reader.line_next] at after
      exact not_unlabeled at_next found below (Nat.lt_of_succ_le after)
  | none =>
    obtain ⟨source, member, content, first⟩ := Reader.exists_started closed more visible found
    refine iff_of_false (fun silent => silent source member content ?_) Bool.false_ne_true
    rw [first]
    exact unlabeled

theorem Waits.vacant_iff {line : Text} {more : List Text} (waits : Waits lines i anchor earlier reader (line :: more))
    (blank : isBlank line = true) {previous : Option Text} :
    (∀ other ∈ Reader.sources { line := reader.line + 1, previous := previous } more, other.IsContent →
      ¬Unlabeled lines i other.first) ↔ isVacant (line :: more) = true := by
  have start : ({ line := reader.line + 1, previous := previous } : Reader).paragraph = [] := rfl
  obtain ⟨later, at_line, closed, free, same⟩ := Reader.exists_skipped start more
  have blanks : lines.drop reader.line = (line :: more.takeWhile isBlank) ++ more.dropWhile isBlank := by
    rw [List.cons_append, List.takeWhile_append_dropWhile, waits.rest]
  have position : later.line = reader.line + (line :: more.takeWhile isBlank).length := by
    rw [at_line, List.length_cons, Nat.add_assoc, Nat.add_comm 1]
  have below : i < later.line := waits.below.trans (by rw [position, List.length_cons]; omega)
  have rest := drop_skipped blanks
  have unlabeled := waits.unlabeled.skip blanks fun l member => by
    rcases List.mem_cons.mp member with rfl | member
    · exact anchor?_of_isBlank blank
    · exact anchor?_of_isBlank (List.mem_takeWhile_imp member)
  rw [← position] at rest unlabeled
  rw [same, isVacant, List.dropWhile_cons_of_pos blank]
  cases filled : more.dropWhile isBlank with
  | nil =>
    rw [Reader.sources_nil_of_closed closed free]
    simp
  | cons next end_lines =>
    rw [filled] at rest
    have visible : isBlank next = false := by
      have := List.head_dropWhile_not isBlank (l := more) (by simp [filled])
      simpa [filled] using this
    rw [List.head?_cons, Option.all_some]
    exact silent_iff closed free visible below rest unlabeled

theorem Waits.blank_iff {line : Text} {more : List Text} (waits : Waits lines i anchor earlier reader (line :: more))
    (blank : isBlank line = true) (filled : reader.paragraph ≠ []) (fair : Waits.Fair lines i reader) :
    Attached lines i anchor (earlier ++ reader.sources (line :: more)) ↔
      (reader.opened < i → isVacant (line :: more) = true) := by
  have move : nextMove true line more = .blank line := nextMove_of_blank true blank more
  obtain ⟨emitted, next⟩ := Reader.blank_of_open filled line
  have free : ∀ source ∈ Reader.sources { line := reader.line + 1, previous := some line } more,
      source.label ≠ some i ∧ (source.IsContent → i < source.first) :=
    later_of_free rfl rfl (waits.below.trans (Nat.lt_succ_self _)) more
  rw [waits.sources_cons, belowMove, move, emitted, next]
  refine (waits.flushed_iff filled fair free).trans (imp_congr_right fun above => ?_)
  exact waits.vacant_iff blank

theorem Waits.advance (waits : Waits lines i anchor earlier reader rest) {later : Reader} {skipped more : List Text}
    (whole : skipped ++ more = rest) (plain : ∀ line ∈ skipped, anchor? line = none)
    (line : later.line = reader.line + skipped.length) (waiting : later.waiting = reader.waiting) :
    Waits lines i anchor earlier later more where
  waiting := waiting.trans waits.waiting
  below := by
    rw [line]
    exact waits.below.trans_le (Nat.le_add_right _ _)
  rest := by
    rw [line]
    exact drop_skipped (waits.rest.trans whole.symm)
  unlabeled := by
    rw [line]
    exact waits.unlabeled.skip (waits.rest.trans whole.symm) plain
  above := waits.above
  label := waits.label

end

end DocPress.Document
