import DocPress.Proofs.Document.Located
import DocPress.Proofs.Document.Waiting

namespace DocPress.Document
open Text Markup Heading

def moveOf? : List Text → Option Move
  | [] => none
  | line :: rest => some (nextMove true line rest)

/-- Whether a label line in a paragraph is clear of what follows: a block does, or the paragraph ends and no other
block starts before the next label. -/
def isClearInside (below : List Text) : Bool :=
  match moveOf? (afterParagraph below) with
  | some (.label ..) => false
  | some (.blank _) => isVacant (afterParagraph below)
  | _ => true

/-- Whether a label line between blocks is clear of what follows: no paragraph does, or one that ends at a blank line
or at the end, or one that is the overline of a heading. -/
def isClearBetween (below : List Text) : Bool :=
  let next := below.dropWhile isBlank
  let texts := paragraphLines next
  texts.isEmpty ||
    match moveOf? (afterParagraph next) with
    | none | some (.blank _) => true
    | some (.heading _ underline) => texts == [underline]
    | _ => false

def isClear (opened : Bool) (below : List Text) : Bool :=
  if opened then isClearInside below else isClearBetween below

section
variable {lines : List Text} {i : Nat} {anchor : Text} {earlier : List Source} {reader : Reader} {below : List Text}

theorem Waits.inside_iff (waits : Waits lines i anchor earlier reader below) (filled : reader.paragraph ≠ [])
    (above : reader.opened < i) (plain : ∀ underline, reader.previous = some underline → isUnderline underline = false) :
    Attached lines i anchor (earlier ++ reader.sources below) ↔ isClearInside below = true := by
  obtain ⟨later, reading, same⟩ := Reader.exists_reading waits.isSome below
  have waits := waits.advance (paragraphLines_append below) (fun line => anchor?_of_mem_paragraphLines) reading.line
    reading.waiting
  have started : later.opened < i := by rwa [reading.continued filled]
  have still : later.paragraph ≠ [] := by
    rw [reading.paragraph]
    exact List.append_ne_nil_of_left_ne_nil filled _
  rw [same, isClearInside]
  cases rest : afterParagraph below with
  | nil =>
    rw [rest] at waits
    exact iff_of_true (waits.attached_nil fun _ => .inl started) rfl
  | cons line more =>
    rw [rest] at waits
    have text := nextMove_afterParagraph rest
    have made := moveAt_nextMove true line more
    -- the line above a heading is the label line, or one of two lines at least
    have apart : ∀ title underline, nextMove true line more = .heading title underline →
        ¬later.Overlined underline := by
      rintro title underline move ⟨single, last⟩
      rw [move] at made
      rw [reading.paragraph] at single
      have empty : paragraphLines below = [] := by
        obtain ⟨first, rest, filled⟩ := List.exists_cons_of_ne_nil filled
        rw [filled, List.cons_append] at single
        exact (List.append_eq_nil_iff.mp (List.cons.inj single).2).2
      rw [reading.previous, empty] at last
      cases made with
      | heading _ _ _ underlines => cases (plain underline last).symm.trans underlines
    rw [moveOf?]
    cases move : nextMove true line more with
    | label first next =>
      rw [move] at made
      cases made
      exact iff_of_false (fun attached => still ((waits.label_iff move fun _ => .inl started).mp attached)) Bool.false_ne_true
    | blank first =>
      rw [move] at made
      cases made with
      | blank blank =>
        exact (waits.blank_iff blank still (.inl started)).trans ⟨fun vacant => vacant started, fun vacant _ => vacant⟩
    | heading | table | figure | captured =>
      exact iff_of_true ((waits.block_iff (by rw [move]; trivial) apart).mpr fun _ => started.le) rfl
    | text first => exact absurd move (text first)

theorem Waits.begun_iff {later : Reader} {texts rest : List Text} (waits : Waits lines i anchor earlier later rest)
    (filled : texts ≠ []) (paragraph : later.paragraph = texts) (previous : later.previous = texts.getLast?)
    (started : i < later.opened) (unlabeled : Unlabeled lines i later.opened)
    (other : ∀ line more, rest = line :: more → ∀ text, nextMove true line more ≠ .text text) :
    Attached lines i anchor (earlier ++ later.sources rest) ↔
      (match moveOf? rest with
      | none | some (.blank _) => true
      | some (.heading _ underline) => texts == [underline]
      | _ => false) = true := by
  have fair : Waits.Fair lines i later := .inr ⟨started, unlabeled⟩
  have still : later.paragraph ≠ [] := by rwa [paragraph]
  have late : ¬(later.paragraph ≠ [] → later.opened ≤ i) := fun above => absurd started (Nat.not_lt.mpr (above still))
  cases rest with
  | nil => exact iff_of_true (waits.attached_nil fun _ => fair) rfl
  | cons line more =>
    have made := moveAt_nextMove true line more
    rw [moveOf?]
    cases move : nextMove true line more with
    | label first next =>
      rw [move] at made
      cases made
      exact iff_of_false (fun attached => still ((waits.label_iff move fun _ => fair).mp attached)) Bool.false_ne_true
    | blank first =>
      rw [move] at made
      cases made with
      | blank blank =>
        exact iff_of_true ((waits.blank_iff blank still fair).mpr fun above => absurd above (Nat.lt_asymm started)) rfl
    | heading title underline =>
      have overlined_iff : later.Overlined underline ↔ texts = [underline] := by
        rw [Reader.Overlined, paragraph, previous]
        exact and_iff_left_of_imp fun single => by rw [single]; rfl
      rw [beq_iff_eq, ← overlined_iff]
      rw [move] at made
      cases made
      by_cases overlined : later.Overlined underline
      · exact iff_of_true (waits.overlined move overlined started unlabeled) overlined
      · refine iff_of_false (fun attached => late ?_) overlined
        refine (waits.block_iff (by rw [move]; trivial) fun _ other same => ?_).mp attached
        obtain ⟨_, rfl⟩ := Move.heading.inj (move.symm.trans same)
        exact overlined
    | table | figure | captured =>
      refine iff_of_false (fun attached => late ?_) Bool.false_ne_true
      exact (waits.block_iff (by rw [move]; trivial) fun _ _ same => by cases move.symm.trans same).mp attached
    | text first => exact absurd move (other line more rfl first)

theorem Waits.attached_of_closed {rest : List Text} (waits : Waits lines i anchor earlier reader rest)
    (closed : reader.paragraph = [])
    (other : ∀ line more, rest = line :: more → isBlank line = false ∧ ∀ text, nextMove true line more ≠ .text text) :
    Attached lines i anchor (earlier ++ reader.sources rest) := by
  have fair : reader.paragraph ≠ [] → Waits.Fair lines i reader := fun filled => absurd closed filled
  cases rest with
  | nil => exact waits.attached_nil fair
  | cons line more =>
    obtain ⟨visible, text⟩ := other line more rfl
    have made := moveAt_nextMove true line more
    cases move : nextMove true line more with
    | label first next =>
      rw [move] at made
      cases made
      exact (waits.label_iff move fair).mpr closed
    | blank first =>
      rw [move] at made
      cases made with
      | blank blank => cases visible.symm.trans blank
    | heading | table | figure | captured =>
      refine (waits.block_iff (by rw [move]; trivial) fun _ _ _ overlined => ?_).mpr fun filled => absurd closed filled
      cases closed.symm.trans overlined.1
    | text first => exact absurd move (text first)

theorem Waits.between_iff (waits : Waits lines i anchor earlier reader below) (closed : reader.paragraph = []) :
    Attached lines i anchor (earlier ++ reader.sources below) ↔ isClearBetween below = true := by
  obtain ⟨skipped, at_line, still, waiting, same⟩ := Reader.exists_skipped closed below
  have waits := waits.advance List.takeWhile_append_dropWhile
    (fun line member => anchor?_of_isBlank (List.mem_takeWhile_imp member)) at_line waiting
  rw [same, isClearBetween]
  have whole := paragraphLines_append (below.dropWhile isBlank)
  have text : ∀ line more, afterParagraph (below.dropWhile isBlank) = line :: more →
      ∀ text, nextMove true line more ≠ .text text := fun line more rest => nextMove_afterParagraph rest
  by_cases empty : paragraphLines (below.dropWhile isBlank) = []
  · rw [empty, List.nil_append] at whole
    rw [whole] at text
    refine iff_of_true (waits.attached_of_closed still fun line more rest => ⟨?_, text line more rest⟩) (by simp [empty])
    have visible := List.head_dropWhile_not isBlank (l := below) (by simp [rest])
    simpa [rest] using visible
  · obtain ⟨later, reading, same⟩ := Reader.exists_reading waits.isSome (below.dropWhile isBlank)
    have opened := reading.started still empty
    rw [same, Bool.or_eq_true, List.isEmpty_iff, or_iff_right empty]
    have waits' := waits.advance whole (fun line => anchor?_of_mem_paragraphLines) reading.line reading.waiting
    refine waits'.begun_iff empty (by rw [reading.paragraph, still, List.nil_append]) ?_ (opened ▸ waits.below)
      (opened ▸ waits.unlabeled) text
    rw [reading.previous]
    obtain ⟨last, some⟩ := Option.ne_none_iff_exists'.mp (mt List.getLast?_eq_none_iff.mp empty)
    rw [some]
    rfl

end

theorem exists_waits {lines before below : List Text} {label anchor : Text}
    (split : lines.map trimEnd = before ++ label :: below) (found : anchor? label = some anchor) :
    ∃ earlier reader, sources lines = earlier ++ reader.sources below ∧
      Waits (lines.map trimEnd) before.length anchor earlier reader below ∧
      reader.paragraph = (Progress.run {} before).paragraph ∧
      (reader.paragraph ≠ [] → reader.opened < before.length) ∧ reader.previous = some label := by
  have follows : Follows (Reader.run {} before) (Progress.run {} before) :=
    Reader.follows_run ⟨rfl, rfl, rfl, fun _ _ _ => rfl⟩ before
  have sound := Reader.sound_start.run before
  have at_label : (Reader.run {} before).line = before.length := by
    rw [Reader.line_run]
    exact Nat.zero_add _
  refine ⟨Reader.ended {} before ++ (Reader.run {} before).placed, (Reader.run {} before).next (.label label anchor),
    ?_, ?_, follows.paragraph.symm, ?_, rfl⟩
  · rw [sources, split, Reader.sources_cut _ _ found, Reader.sources, nextMove_of_label _ found, belowMove,
      nextMove_of_label _ found, List.append_assoc]
    rfl
  · have given : ∀ source ∈ Reader.ended {} before ++ (Reader.run {} before).placed,
        source.first < before.length ∧ ∀ k, source.label = some k → k < before.length := by
      intro source member
      rcases List.mem_append.mp member with member | member
      · have bounds := Reader.before_ended Reader.sound_start member
        rwa [Nat.zero_add] at bounds
      · obtain ⟨waiting, waits, rfl⟩ := Reader.mem_placed member
        have above : waiting.line < before.length :=
          at_label ▸ sound.waiting waiting.line (by rw [Reader.labelLine?, waits]; rfl)
        exact ⟨above, fun k label => Option.some.inj label ▸ above⟩
    have next_line : ((Reader.run {} before).next (.label label anchor)).line = before.length + 1 := by
      rw [Reader.line_next, at_label]
      rfl
    exact {
      waiting := by rw [Reader.next, at_label]
      below := by rw [next_line]; exact Nat.lt_succ_self _
      rest := by rw [next_line, split, ← List.drop_drop, List.drop_left]; rfl
      unlabeled := fun k _ below above => by rw [next_line] at above; omega
      above := fun source member => (given source member).1
      label := fun source member label => Nat.lt_irrefl _ ((given source member).2 _ label) }
  · intro filled
    exact at_label ▸ sound.opened filled

theorem attached_cut {lines before below : List Text} {label anchor : Text}
    (split : lines.map trimEnd = before ++ label :: below) (found : anchor? label = some anchor) :
    Attached (lines.map trimEnd) before.length anchor (sources lines) ↔
      isClear (!(Progress.run {} before).paragraph.isEmpty) below = true := by
  obtain ⟨earlier, reader, same, waits, paragraph, opened, previous⟩ := exists_waits split found
  rw [same, isClear, ← paragraph]
  by_cases closed : reader.paragraph = []
  · rw [closed]
    exact waits.between_iff closed
  · rw [if_pos (by simpa using closed)]
    refine waits.inside_iff closed (opened closed) fun underline last => ?_
    obtain rfl : label = underline := Option.some.inj (previous.symm.trans last)
    exact eq_false_of_anchor? found anchor?_of_isUnderline

structure Layout (lines : List Text) (elements : List Element) (sources : List Source) : Prop where
  elements : elements = sources.map fun source => Element.ofBlock source.block
  located : ∀ source ∈ sources, Located lines source
  ordered : Ordered sources

theorem layout_sources (lines : List Text) : Layout (lines.map trimEnd) (parse lines) (sources lines) where
  elements := by
    rw [parse, blocks_eq_map_sources, List.map_map]
    rfl
  located _ := located_sources
  ordered := ordered_sources lines

def isOpenBelow (above : List Text) : Bool :=
  !(Progress.run {} above).paragraph.isEmpty

/-- A label ends up where it belongs exactly where the lines below it are clear. -/
theorem label_attached_iff {lines : List Text} {i : Nat} {label anchor : Text}
    (at_line : (lines.map trimEnd)[i]? = some label) (found : anchor? label = some anchor) :
    Layout (lines.map trimEnd) (parse lines) (sources lines) ∧
      (Attached (lines.map trimEnd) i anchor (sources lines) ↔
        isClear (isOpenBelow ((lines.map trimEnd).take i)) ((lines.map trimEnd).drop (i + 1)) = true) := by
  obtain ⟨inside, rfl⟩ := List.getElem?_eq_some_iff.mp at_line
  have split : lines.map trimEnd = (lines.map trimEnd).take i ++
      (lines.map trimEnd)[i] :: (lines.map trimEnd).drop (i + 1) := by
    rw [← List.drop_eq_getElem_cons inside, List.take_append_drop]
  have position : ((lines.map trimEnd).take i).length = i := List.length_take_of_le inside.le
  have cut := attached_cut split found
  rw [position] at cut
  exact ⟨layout_sources lines, cut⟩

def titled : List Text :=
  [".. _a:".toList, [], "Title".toList, "=====".toList]

theorem label_attached_titled : Attached (titled.map trimEnd) 0 "a".toList (sources titled) := by
  have at_line : (titled.map trimEnd)[0]? = some ".. _a:".toList := by decide +kernel
  exact (label_attached_iff at_line (by decide +kernel)).2.mpr (by decide +kernel)

theorem label_not_attached_below_text :
    (("Text".toList :: titled).map trimEnd)[1]? = some ".. _a:".toList ∧ anchor? ".. _a:".toList = some "a".toList ∧
      parse ("Text".toList :: titled) =
        [.paragraph ["Text".toList], .label "a".toList, .header none "Title".toList "=====".toList] ∧
      ¬Attached (("Text".toList :: titled).map trimEnd) 1 "a".toList (sources ("Text".toList :: titled)) := by
  refine ⟨by decide +kernel, by decide +kernel, by decide +kernel, ?_⟩
  have split : ("Text".toList :: titled).map trimEnd =
      ["Text".toList] ++ ".. _a:".toList :: [[], "Title".toList, "=====".toList] := by decide +kernel
  have found : anchor? ".. _a:".toList = some "a".toList := by decide +kernel
  have cut := attached_cut split found
  rw [List.length_singleton] at cut
  rw [cut]
  decide +kernel

end DocPress.Document
