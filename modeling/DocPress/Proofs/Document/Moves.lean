import DocPress.Document.Parser
import DocPress.Proofs.Heading.Underline

namespace DocPress.Document
open Text Markup Heading

inductive Move where
  | label (line anchor : Text)
  | heading (title underline : Text)
  | table (block : TableBlock)
  | figure (lines : List Text)
  | captured (lines : List Text)
  | blank (line : Text)
  | text (line : Text)
deriving DecidableEq, Repr

namespace Move

def lines : Move → List Text
  | label line _ | blank line | text line => [line]
  | heading title underline => [title, underline]
  | table block => block.lines
  | figure lines | captured lines => lines

def anchor? : Move → Option Text
  | label _ anchor => some anchor
  | _ => none

end Move

def capturedMember? (waiting : Bool) (line : Text) : Option (Text → Bool) :=
  if !waiting then none
  else if startsWith "- ".toList line then some isListLine
  else if startsWith ".. ".toList line && labeledDirectives.any fun name => isDirective name line then some isBody
  else none

def nextMove (waiting : Bool) (line : Text) (rest : List Text) : Move :=
  match anchor? line with
  | some anchor => .label line anchor
  | none =>
    match (rest.head?.filter isUnderline).filter fun _ => !isBlank line with
    | some underline => .heading line underline
    | none =>
      if startsWith ".. csv-table::".toList line then .table (tableBlock line rest).1
      else if startsWith ".. figure::".toList line then .figure (line :: rest.takeWhile (inBlock isBody))
      else
        match capturedMember? waiting line with
        | some member => .captured (line :: rest.takeWhile (inBlock member))
        | none => if isBlank line then .blank line else .text line

def Progress.take (progress : Progress) : Move → Progress
  | .label line anchor => (progress.awaitLabel anchor).after (some line)
  | .heading title underline => ((progress.flush.pushHeader title underline).placeLabel).after (some underline)
  | .table block => (progress.flush.pushTable block).after block.lines.getLast?
  | .figure lines => (progress.flush.pushFigure lines).after lines.getLast?
  | .captured lines =>
    ((progress.flush.push (.paragraph (dropEndWhile isBlank lines))).placeLabel).after lines.getLast?
  | .blank line | .text line => (progress.readPlain line).after (some line)

/-! ## Lines that are no labels -/

section
variable {line : Text}

theorem anchor?_eq_some {anchor : Text} (found : anchor? line = some anchor) :
    trimEnd line = ".. _".toList ++ anchor ++ [':'] ∧ anchor ≠ [] := by
  obtain ⟨ending, filled⟩ := Option.filter_eq_some_iff.mp found
  obtain ⟨rest, lead, tail⟩ := Option.bind_eq_some_iff.mp ending
  rw [afterLead?_eq_some_iff.mp lead, beforeTail?_eq_some_iff.mp tail, List.append_assoc]
  exact ⟨rfl, by simpa using filled⟩

theorem anchor?_lead {anchor : Text} (found : anchor? line = some anchor) : ∃ rest, line = ".. _".toList ++ rest := by
  obtain ⟨after, whole⟩ := trimEnd_prefix_self line
  rw [(anchor?_eq_some found).1, List.append_assoc, List.append_assoc] at whole
  exact ⟨_, whole.symm⟩

theorem anchor?_eq_none {p : Text → Bool} (holds : p line = true) (never : ∀ rest, p (".. _".toList ++ rest) = false) :
    anchor? line = none := by
  rw [Option.eq_none_iff_forall_ne_some]
  intro anchor found
  obtain ⟨rest, rfl⟩ := anchor?_lead found
  rw [never rest] at holds
  cases holds

theorem anchor?_of_isBlank (blank : isBlank line = true) : anchor? line = none :=
  anchor?_eq_none blank fun _ => rfl

theorem anchor?_of_isBody (body : isBody line = true) : anchor? line = none :=
  anchor?_eq_none body fun _ => rfl

theorem anchor?_of_isListLine (item : isListLine line = true) : anchor? line = none :=
  anchor?_eq_none item fun _ => rfl

theorem anchor?_of_isFilledBody (body : isFilledBody line = true) : anchor? line = none :=
  anchor?_eq_none body fun _ => rfl

theorem anchor?_of_isFootnoteStart (start : isFootnoteStart line = true) : anchor? line = none :=
  anchor?_eq_none start fun _ => rfl

theorem anchor?_of_isUnderline (underline : isUnderline line = true) : anchor? line = none := by
  rw [Option.eq_none_iff_forall_ne_some]
  intro anchor found
  obtain ⟨marker, same⟩ := Option.isSome_iff_exists.mp underline
  obtain ⟨n, long, visible⟩ := underlineMarker?_eq_some_iff.mp same
  rw [(anchor?_eq_some found).1] at visible
  obtain ⟨k, rfl⟩ : ∃ k, n = k + 1 := ⟨n - 1, by omega⟩
  rw [List.replicate_succ] at visible
  cases marker <;> cases (List.cons.inj visible).1

theorem eq_false_of_anchor? {p : Text → Bool} {anchor : Text} (found : anchor? line = some anchor)
    (plain : p line = true → anchor? line = none) : p line = false := by
  rw [Bool.eq_false_iff]
  intro holds
  rw [plain holds] at found
  cases found

theorem anchor?_of_inBlock {member : Text → Bool} (none : ∀ line, member line = true → anchor? line = none)
    (inside : inBlock member line = true) : anchor? line = Option.none := by
  rw [inBlock, Bool.or_eq_true, List.isEmpty_iff] at inside
  rcases inside with rfl | inside
  · rfl
  · exact none line inside

end

theorem anchors_takeWhile {p : Text → Bool} (none : ∀ line, p line = true → anchor? line = none) (lines : List Text) :
    (lines.takeWhile p).filterMap anchor? = [] :=
  List.filterMap_eq_nil_iff.mpr fun line member => none line (List.mem_takeWhile_imp member)

/-! ## Lines that are no underlines -/

section
variable {line : Text}

theorem isUnderline_of_isBlank (blank : isBlank line = true) : isUnderline line = false :=
  isUnderline_eq_false blank fun marker _ => by cases marker <;> rfl

theorem isUnderline_of_isBody (body : isBody line = true) : isUnderline line = false :=
  isUnderline_eq_false body fun marker _ => by cases marker <;> rfl

theorem isUnderline_of_isListLine (item : isListLine line = true) : isUnderline line = false :=
  isUnderline_eq_false item fun marker _ => by cases marker <;> rfl

theorem isUnderline_of_isFilledBody (body : isFilledBody line = true) : isUnderline line = false :=
  isUnderline_eq_false body fun marker _ => by cases marker <;> rfl

theorem isUnderline_of_isFootnoteStart (start : isFootnoteStart line = true) : isUnderline line = false :=
  isUnderline_eq_false start fun marker _ => by cases marker <;> rfl

theorem isUnderline_of_directive {rest : Text} (starts : startsWith (".. ".toList ++ rest) line = true) :
    isUnderline line = false :=
  isUnderline_eq_false starts fun marker _ => by cases marker <;> rfl

end

/-! ## The lines of blocks with a body -/

theorem noteBlocks_of_other {lines after : List Text} {line : Text} (same : lines.dropWhile isBlank = line :: after)
    (other : ¬isFootnoteStart line = true) : noteBlocks lines = ([], lines) := by
  rw [noteBlocks]
  split
  · rfl
  · next first more same' =>
    obtain ⟨rfl, rfl⟩ := List.cons.inj (same.symm.trans same')
    exact if_neg other

theorem noteBlocks_of_start {lines after : List Text} {line : Text} (same : lines.dropWhile isBlank = line :: after)
    (start : isFootnoteStart line = true) : noteBlocks lines =
      (⟨lines.takeWhile isBlank, line, after.takeWhile isFilledBody⟩ :: (noteBlocks (after.dropWhile isFilledBody)).1,
        (noteBlocks (after.dropWhile isFilledBody)).2) := by
  rw [noteBlocks]
  split
  · next empty => cases empty.symm.trans same
  · next first more same' =>
    obtain ⟨rfl, rfl⟩ := List.cons.inj (same.symm.trans same')
    exact if_pos start

theorem noteBlocks_lines (lines : List Text) :
    (noteBlocks lines).1.flatMap NoteBlock.lines ++ (noteBlocks lines).2 = lines := by
  fun_induction noteBlocks lines with
  | case1 | case3 => rfl
  | case2 lines line after found start note rest ih =>
    rw [List.flatMap_cons, List.append_assoc, ih, NoteBlock.lines, List.append_assoc, List.cons_append,
      List.takeWhile_append_dropWhile, ← found, List.takeWhile_append_dropWhile]

theorem forall_mem_noteBlocks {q : Text → Prop} (blank : ∀ line, isBlank line = true → q line)
    (start : ∀ line, isFootnoteStart line = true → q line) (body : ∀ line, isFilledBody line = true → q line)
    (lines : List Text) : ∀ line ∈ (noteBlocks lines).1.flatMap NoteBlock.lines, q line := by
  fun_induction noteBlocks lines with
  | case1 | case3 => exact List.forall_mem_nil _
  | case2 lines line after found first note rest ih =>
    rw [List.flatMap_cons, List.forall_mem_append, NoteBlock.lines, List.forall_mem_append, List.forall_mem_cons]
    exact ⟨⟨fun _ gap => blank _ (List.mem_takeWhile_imp gap), start _ first,
      fun _ inside => body _ (List.mem_takeWhile_imp inside)⟩, ih⟩

theorem tableBlock_lines (directive : Text) (lines : List Text) :
    (tableBlock directive lines).1.lines ++ (tableBlock directive lines).2 = directive :: lines := by
  simp only [tableBlock, TableBlock.lines, List.cons_append, List.append_assoc, noteBlocks_lines, List.cons.injEq,
    true_and]
  split
  · next empty =>
    rw [List.isEmpty_iff.mp empty, List.nil_append, List.nil_append, List.takeWhile_append_dropWhile]
  · rw [List.takeWhile_append_dropWhile, List.takeWhile_append_dropWhile, List.takeWhile_append_dropWhile]

theorem forall_mem_tableBlock {q : Text → Prop} {directive : Text} (first : q directive)
    (blank : ∀ line, isBlank line = true → q line) (start : ∀ line, isFootnoteStart line = true → q line)
    (body : ∀ line, isFilledBody line = true → q line) (lines : List Text) :
    ∀ line ∈ (tableBlock directive lines).1.lines, q line := by
  have taken : ∀ lines : List Text, ∀ line ∈ lines.takeWhile isFilledBody, q line := fun _ line member =>
    body line (List.mem_takeWhile_imp member)
  simp only [tableBlock, TableBlock.lines, List.forall_mem_cons, List.forall_mem_append]
  refine ⟨first, ⟨⟨taken _, ?_⟩, taken _⟩, forall_mem_noteBlocks blank start body _⟩
  split
  · exact List.forall_mem_nil _
  · exact fun line member => blank line (List.mem_takeWhile_imp member)

theorem anchors_tableBlock {directive : Text} (plain : anchor? directive = none) (lines : List Text) :
    (tableBlock directive lines).1.lines.filterMap anchor? = [] :=
  List.filterMap_eq_nil_iff.mpr (forall_mem_tableBlock plain (fun _ => anchor?_of_isBlank)
    (fun _ => anchor?_of_isFootnoteStart) (fun _ => anchor?_of_isFilledBody) lines)

theorem capturedMember?_anchor {waiting : Bool} {line : Text} {member : Text → Bool}
    (found : capturedMember? waiting line = some member) (l : Text) (inside : member l = true) : anchor? l = none := by
  rw [capturedMember?] at found
  split at found
  · cases found
  · split at found
    · cases found
      exact anchor?_of_isListLine inside
    · split at found
      · cases found
        exact anchor?_of_isBody inside
      · cases found

/-! ## What a step reads -/

theorem underlined_eq_some_iff {line underline : Text} {rest : List Text} :
    ((rest.head?.filter isUnderline).filter fun _ => !isBlank line) = some underline ↔
      rest.head? = some underline ∧ isUnderline underline = true ∧ isBlank line = false := by
  simp [Option.filter_eq_some_iff]

theorem drop_of_append {line : Text} {read remaining rest : List Text} (whole : read ++ remaining = line :: rest)
    (some : read ≠ []) : rest.drop (read.length - 1) = remaining := by
  cases read with
  | nil => exact absurd rfl some
  | cons first read =>
    obtain ⟨rfl, rfl⟩ := List.cons.inj whole
    simp

section
variable (waiting : Bool) (line : Text) (rest : List Text)

def belowMove : List Text :=
  rest.drop ((nextMove waiting line rest).lines.length - 1)

theorem lines_nextMove : (nextMove waiting line rest).lines ++ belowMove waiting line rest = line :: rest := by
  have split_at : ∀ read remaining : List Text, read ++ remaining = line :: rest → read ≠ [] →
      read ++ rest.drop (read.length - 1) = line :: rest :=
    fun read remaining whole some => by rw [drop_of_append whole some, whole]
  rw [belowMove, nextMove]
  split
  · rfl
  · split
    · next underline found =>
      obtain ⟨more, rfl⟩ := List.head?_eq_some_iff.mp (underlined_eq_some_iff.mp found).1
      rfl
    · split
      · exact split_at _ _ (tableBlock_lines line rest) (by simp [Move.lines, TableBlock.lines])
      · split
        · exact split_at _ (rest.dropWhile (inBlock isBody)) (by simp [Move.lines]) (by simp [Move.lines])
        · split
          · next member found =>
            exact split_at _ (rest.dropWhile (inBlock member)) (by simp [Move.lines]) (by simp [Move.lines])
          · split <;> rfl

theorem anchors_nextMove :
    (nextMove waiting line rest).lines.filterMap anchor? = (nextMove waiting line rest).anchor?.toList := by
  rw [nextMove]
  split
  · next anchor found => simp [Move.lines, Move.anchor?, found]
  · next plain =>
    split
    · next underline found =>
      obtain ⟨_, underlines, _⟩ := underlined_eq_some_iff.mp found
      simp [Move.lines, Move.anchor?, plain, anchor?_of_isUnderline underlines]
    · split
      · exact anchors_tableBlock plain rest
      · split
        · rw [Move.lines, List.filterMap_cons_none plain]
          exact anchors_takeWhile (fun _ => anchor?_of_inBlock fun _ => anchor?_of_isBody) rest
        · split
          · next member found =>
            rw [Move.lines, List.filterMap_cons_none plain]
            exact anchors_takeWhile (fun _ => anchor?_of_inBlock (capturedMember?_anchor found)) rest
          · split <;> simp [Move.lines, Move.anchor?, plain]

theorem length_belowMove_le : (belowMove waiting line rest).length ≤ rest.length := by
  rw [belowMove, List.length_drop]
  exact Nat.sub_le _ _

end

theorem labeledMember?_eq (progress : Progress) (line : Text) :
    progress.labeledMember? line = capturedMember? progress.pending.isSome line := by
  cases pending : progress.pending <;> simp [Progress.labeledMember?, capturedMember?, pending]

theorem step_eq (progress : Progress) (line : Text) (rest : List Text) :
    progress.step line rest = (progress.take (nextMove progress.pending.isSome line rest),
      belowMove progress.pending.isSome line rest) := by
  have below : ∀ read remaining : List Text, read ++ remaining = line :: rest → read ≠ [] →
      remaining = rest.drop (read.length - 1) := fun read remaining whole some => (drop_of_append whole some).symm
  rw [belowMove, Progress.step, nextMove, labeledMember?_eq]
  cases anchor? line with
  | some anchor => rfl
  | none =>
    cases (rest.head?.filter isUnderline).filter fun _ => !isBlank line with
    | some underline => rfl
    | none =>
      simp only
      split
      · exact congrArg (Prod.mk _) (below _ _ (tableBlock_lines line rest) (by simp [Move.lines, TableBlock.lines]))
      · split
        · exact congrArg (Prod.mk _) (below (line :: rest.takeWhile _) _ (by simp) (by simp))
        · cases capturedMember? progress.pending.isSome line with
          | some member => exact congrArg (Prod.mk _) (below (line :: rest.takeWhile _) _ (by simp) (by simp))
          | none =>
            simp only
            split <;> rfl

inductive MoveAt (waiting : Bool) (line : Text) (rest : List Text) : Move → Prop where
  | label {anchor} : anchor? line = some anchor → MoveAt waiting line rest (.label line anchor)
  | heading {underline} : anchor? line = none → isBlank line = false → rest.head? = some underline →
      isUnderline underline = true → MoveAt waiting line rest (.heading line underline)
  | table : anchor? line = none → startsWith ".. csv-table::".toList line = true →
      MoveAt waiting line rest (.table (tableBlock line rest).1)
  | figure : anchor? line = none → startsWith ".. figure::".toList line = true →
      MoveAt waiting line rest (.figure (line :: rest.takeWhile (inBlock isBody)))
  | captured {member} : anchor? line = none → capturedMember? waiting line = some member →
      MoveAt waiting line rest (.captured (line :: rest.takeWhile (inBlock member)))
  | blank : isBlank line = true → MoveAt waiting line rest (.blank line)
  | text : anchor? line = none → isBlank line = false → MoveAt waiting line rest (.text line)

theorem moveAt_nextMove (waiting : Bool) (line : Text) (rest : List Text) :
    MoveAt waiting line rest (nextMove waiting line rest) := by
  rw [nextMove]
  split
  · next anchor found => exact .label found
  · next plain =>
    split
    · next underline found =>
      obtain ⟨head, underlines, filled⟩ := underlined_eq_some_iff.mp found
      exact .heading plain filled head underlines
    · split
      · next table => exact .table plain table
      · split
        · next figure => exact .figure plain figure
        · split
          · next member found => exact .captured plain found
          · split
            · next blank => exact .blank blank
            · next filled => exact .text plain (Bool.eq_false_iff.mpr filled)

theorem capturedMember?_waiting {waiting : Bool} {line : Text} {member : Text → Bool}
    (found : capturedMember? waiting line = some member) : waiting = true := by
  cases waiting with
  | true => rfl
  | false => cases found

theorem startsWith_of_blank {line lead : Text} (blank : isBlank line = true)
    (visible : (lead.head?.any fun c => !isSpace c) = true) : startsWith lead line = false := by
  cases lead with
  | nil => cases visible
  | cons c lead =>
    cases line with
    | nil => rfl
    | cons d rest =>
      have space : isSpace d = true := by
        rw [isBlank, List.all_cons, Bool.and_eq_true] at blank
        exact blank.1
      have apart : c ≠ d := by
        rintro rfl
        simp [space] at visible
      simp [startsWith, afterLead?, apart]

theorem isBlank_of_captured {waiting : Bool} {line : Text} {member : Text → Bool}
    (found : capturedMember? waiting line = some member) : isBlank line = false := by
  rw [Bool.eq_false_iff]
  intro blank
  have item : startsWith "- ".toList line = false := startsWith_of_blank blank (by decide)
  have directive : startsWith ".. ".toList line = false := startsWith_of_blank blank (by decide)
  rw [capturedMember?, item, directive] at found
  cases waiting <;> cases found

theorem nextMove_of_blank (waiting : Bool) {line : Text} (blank : isBlank line = true) (rest : List Text) :
    nextMove waiting line rest = .blank line := by
  have made := moveAt_nextMove waiting line rest
  generalize nextMove waiting line rest = move at made ⊢
  cases made with
  | blank => rfl
  | label found => cases (anchor?_of_isBlank blank).symm.trans found
  | heading plain filled | text plain filled => cases filled.symm.trans blank
  | table plain start | figure plain start => cases (startsWith_of_blank blank (by decide)).symm.trans start
  | captured plain found => cases (isBlank_of_captured found).symm.trans blank

theorem nextMove_of_label {label anchor : Text} (waiting : Bool) (found : anchor? label = some anchor)
    (rest : List Text) : nextMove waiting label rest = .label label anchor := by
  rw [nextMove, found]

end DocPress.Document
