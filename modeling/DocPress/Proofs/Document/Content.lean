import DocPress.Document.Element
import DocPress.Proofs.Document.Sources
import Mathlib.Data.List.Forall2

namespace DocPress.Document
open Text Markup Heading

def Block.lines : Block → List Text
  | .header overline title underline => overline.toList ++ [title, underline]
  | .label _ => []
  | .paragraph lines | .table lines _ | .figure lines _ => lines

/-- The lines that an element shows in its fields, or that a table or a figure is read from. A label has none. -/
inductive Element.Reads : Element → List Text → Prop where
  | header {overline title underline} : Reads (.header overline title underline) (overline.toList ++ [title, underline])
  | label {anchor} : Reads (.label anchor) []
  | paragraph {lines} : Reads (.paragraph lines) lines
  | table {lines anchor} : Reads (.table (Table.parse lines anchor)) lines
  | figure {lines anchor} : Reads (.figure (Figure.parse lines anchor)) lines

def isContent (line : Text) : Bool :=
  isFilled line && (anchor? line).isNone

/-! ## The ranges that steps read -/

/-- A run from line `first` on, with the range of lines that each step reads: from its own line up to, but not with,
the line of the next step. -/
inductive Progress.Steps (lines : List Text) : Progress → Nat → List (Nat × Nat) → Progress → Prop
  | done {progress} : Steps lines progress lines.length [] progress
  | step {progress later last line rest first next ranges} : lines.drop first = line :: rest →
      progress.step line rest = (later, lines.drop next) → first < next → Steps lines later next ranges last →
      Steps lines progress first ((first, next) :: ranges) last

namespace Progress
variable {lines : List Text}

theorem exists_read (progress : Progress) (line : Text) (rest : List Text) :
    ∃ read, read ≠ [] ∧ read ++ (progress.step line rest).2 = line :: rest := by
  have whole := lines_nextMove progress.pending.isSome line rest
  rw [step_eq]
  refine ⟨_, ?_, whole⟩
  intro none
  rw [none, belowMove, none] at whole
  exact absurd (congrArg List.length whole) (by simp)

theorem steps_run (progress : Progress) (lines : List Text) {first : Nat} (inside : first ≤ lines.length) :
    ∃ ranges, Steps lines progress first ranges (progress.run (lines.drop first)) := by
  generalize below : lines.drop first = left
  induction progress, left using Progress.run.induct generalizing first with
  | case1 progress =>
    obtain rfl : first = lines.length := by
      have := congrArg List.length below
      rw [List.length_drop, List.length_nil] at this
      omega
    rw [run]
    exact ⟨[], .done⟩
  | case2 progress line rest next =>
    rename_i ih
    obtain ⟨read, some, whole⟩ := exists_read progress line rest
    have later : lines.drop (first + read.length) = next.2 := by
      rw [← List.drop_drop, below, ← whole, List.drop_left]
    have fits : first + read.length ≤ lines.length := by
      have := congrArg List.length (below.trans whole.symm)
      rw [List.length_drop, List.length_append] at this
      omega
    obtain ⟨ranges, steps⟩ := ih fits later
    rw [run]
    have forward : first < first + read.length := Nat.lt_add_of_pos_right (List.length_pos_of_ne_nil some)
    exact ⟨_, .step below (Prod.ext rfl later.symm) forward steps⟩

theorem Steps.inside {progress last : Progress} {first : Nat} {ranges : List (Nat × Nat)}
    (steps : Steps lines progress first ranges last) : first ≤ lines.length := by
  cases steps with
  | done => exact Nat.le_refl _
  | step below =>
    have := congrArg List.length below
    rw [List.length_drop, List.length_cons] at this
    omega

theorem Steps.covers {progress last : Progress} {first : Nat} {ranges : List (Nat × Nat)}
    (steps : Steps lines progress first ranges last) (i : Nat) :
    (ranges.countP fun range => range.1 ≤ i && i < range.2) = if first ≤ i ∧ i < lines.length then 1 else 0 := by
  induction steps with
  | done =>
    rw [if_neg (by omega)]
    rfl
  | step _ _ forward below ih =>
    have inside := below.inside
    rw [List.countP_cons, ih]
    simp only [Bool.and_eq_true, decide_eq_true_eq]
    split <;> split <;> split <;> omega

end Progress

/-! ## The lines that moves pass on -/

theorem filter_isFilled_dropEndWhile (lines : List Text) :
    (dropEndWhile isBlank lines).filter isFilled = lines.filter isFilled := by
  rw [dropEndWhile_eq_rdropWhile]
  conv_rhs => rw [← List.rdropWhile_append_rtakeWhile (p := isBlank) (l := lines), List.filter_append]
  have blank : (lines.rtakeWhile isBlank).filter isFilled = [] := by
    rw [List.filter_eq_nil_iff]
    intro line member
    simp [isFilled, List.mem_rtakeWhile_imp member]
  rw [blank, List.append_nil]

theorem filter_isContent {lines : List Text} (plain : lines.filterMap anchor? = []) : lines.filter isContent = lines.filter isFilled := by
  rw [List.filterMap_eq_nil_iff] at plain
  refine List.filter_congr fun line member => ?_
  rw [isContent, plain line member, Option.isNone_none, Bool.and_true]

def filled (sources : List Source) : List Text :=
  (sources.flatMap fun source => source.block.lines).filter isFilled

@[simp]
theorem filled_append (first second : List Source) : filled (first ++ second) = filled first ++ filled second := by
  rw [filled, List.flatMap_append, List.filter_append, filled, filled]

namespace Reader
variable (reader : Reader)

@[simp]
theorem filled_flushed : filled reader.flushed = reader.paragraph.filter isFilled := by
  rw [flushed]
  split
  · next empty => rw [List.isEmpty_iff.mp empty]; rfl
  · simp [filled, Block.lines]

@[simp]
theorem filled_placed : filled reader.placed = [] := by
  rw [placed]
  cases reader.waiting <;> rfl

theorem filled_move (waiting : Bool) (line : Text) (rest : List Text) :
    filled (reader.emitted (nextMove waiting line rest)) ++
        (reader.next (nextMove waiting line rest)).paragraph.filter isFilled =
      reader.paragraph.filter isFilled ++ (nextMove waiting line rest).lines.filter isContent := by
  have made := moveAt_nextMove waiting line rest
  have plain := anchors_nextMove waiting line rest
  generalize nextMove waiting line rest = move at made plain ⊢
  cases made with
  | label found => simp [emitted, next, Move.lines, isContent, found]
  | heading =>
    rw [filter_isContent plain, emitted, filled_append, filled_placed]
    split
    · next overlined =>
      rw [overlined.1]
      simp [filled, Block.lines, next, Move.lines, ← List.filter_append]
    · rw [filled_append, filled_flushed]
      simp [filled, Block.lines, next, Move.lines]
  | table | figure =>
    rw [filter_isContent plain, emitted, filled_append, filled_flushed]
    simp [filled, Block.lines, next, Move.lines]
  | captured =>
    rw [filter_isContent plain, emitted, filled_append, filled_flushed, ← List.singleton_append, filled_append,
      filled_placed]
    simp [filled, Block.lines, next, Move.lines, filter_isFilled_dropEndWhile]
  | blank blank =>
    rw [filter_isContent plain, emitted, next]
    split
    · next empty => simp [Move.lines, List.isEmpty_iff.mp empty, filled, isFilled, blank]
    · simp [Move.lines, isFilled, blank]
  | text =>
    rw [filter_isContent plain, emitted, next, List.filter_append]
    rfl

theorem filled_sources (lines : List Text) :
    filled (reader.sources lines) = reader.paragraph.filter isFilled ++ lines.filter isContent := by
  induction reader, lines using sources.induct with
  | case1 reader => simp [sources]
  | case2 reader line rest move ih =>
    have read := lines_nextMove reader.waiting.isSome line rest
    rw [sources, filled_append, ih, ← List.append_assoc, filled_move, ← read, List.filter_append,
       List.append_assoc]

end Reader

theorem filled_blocks (lines : List Text) :
    ((blocks lines).flatMap Block.lines).filter isFilled = (lines.map trimEnd).filter isContent := by
  rw [blocks_eq_map_sources, List.flatMap_map]
  exact Reader.filled_sources {} (lines.map trimEnd)

theorem reads_parse (lines : List Text) : List.Forall₂ Element.Reads (parse lines) ((blocks lines).map Block.lines) := by
  rw [parse, List.forall₂_map_left_iff, List.forall₂_map_right_iff, List.forall₂_same]
  intro block _
  cases block with
  | header => exact .header
  | label => exact .label
  | paragraph => exact .paragraph
  | table => exact .table
  | figure => exact .figure

/-- The steps of a parse read ranges of lines that follow each other and hold every line once, and the blocks they end
with, which become the elements, hold the filled lines that are no labels, in order. -/
theorem text_kept (lines : List Text) :
    (∃ ranges last, Progress.Steps (lines.map trimEnd) {} 0 ranges last ∧ blocks lines = last.finish.blocks ∧
      ∀ i, (ranges.countP fun range => range.1 ≤ i && i < range.2) = if i < lines.length then 1 else 0) ∧
      parse lines = (blocks lines).map Element.ofBlock ∧
      List.Forall₂ Element.Reads (parse lines) ((blocks lines).map Block.lines) ∧
      ((blocks lines).flatMap Block.lines).filter isFilled =
        (lines.map trimEnd).filter fun line => isFilled line && (anchor? line).isNone := by
  refine ⟨?_, rfl, reads_parse lines, filled_blocks lines⟩
  obtain ⟨ranges, steps⟩ := Progress.steps_run {} (lines.map trimEnd) (Nat.zero_le _)
  refine ⟨ranges, _, steps, rfl, fun i => ?_⟩
  rw [steps.covers i, List.length_map]
  simp

end DocPress.Document
