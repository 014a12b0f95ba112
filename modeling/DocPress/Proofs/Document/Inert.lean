import DocPress.Proofs.Document.Content
import DocPress.Proofs.Document.ReadBack

namespace DocPress.Document
open Text Markup Heading

structure IsPlain (line : Text) : Prop where
  trimmed : trimEnd line = line
  unnamed : anchor? line = none
  starts : startsBlock line = false

/-- Lines without labels, where what starts like a table or a figure is the title of a heading. -/
inductive IsInert : List Text → Prop
  | nil : IsInert []
  | cons {line rest} : trimEnd line = line → anchor? line = none →
      (startsBlock line = true → ∃ underline ∈ rest.head?, isUnderline underline = true) → IsInert rest →
      IsInert (line :: rest)

section
variable {line : Text} {lines : List Text}

theorem IsInert.cons_plain (plain : IsPlain line) (inert : IsInert lines) : IsInert (line :: lines) :=
  .cons plain.trimmed plain.unnamed (fun starts => by simp [plain.starts] at starts) inert

theorem IsInert.of_plain (plain : ∀ line ∈ lines, IsPlain line) : IsInert lines := by
  induction lines with
  | nil => exact .nil
  | cons line lines ih =>
    rw [List.forall_mem_cons] at plain
    exact .cons_plain plain.1 (ih plain.2)

theorem IsInert.append {more : List Text} (inert : IsInert lines) (below : IsInert more) : IsInert (lines ++ more) := by
  induction inert with
  | nil => exact below
  | @cons line rest trimmed unnamed titled _ ih =>
    refine .cons trimmed unnamed (fun starts => ?_) ih
    obtain ⟨underline, first, underlines⟩ := titled starts
    obtain ⟨after, rfl⟩ := List.head?_eq_some_iff.mp first
    exact ⟨underline, rfl, underlines⟩

theorem IsInert.forall_mem (inert : IsInert lines) : ∀ line ∈ lines, trimEnd line = line ∧ anchor? line = none := by
  induction inert with
  | nil => simp
  | cons trimmed unnamed _ _ ih => exact List.forall_mem_cons.mpr ⟨⟨trimmed, unnamed⟩, ih⟩

theorem IsInert.map_trimEnd (inert : IsInert lines) : lines.map trimEnd = lines :=
  (List.map_congr_left fun line member => (inert.forall_mem line member).1).trans (List.map_id lines)

theorem IsInert.anchors (inert : IsInert lines) : lines.filterMap anchor? = [] :=
  List.filterMap_eq_nil_iff.mpr fun line member => (inert.forall_mem line member).2

theorem IsInert.tail (inert : IsInert (line :: lines)) : IsInert lines := by
  cases inert with
  | cons _ _ _ below => exact below

theorem isPlain_nil : IsPlain [] :=
  ⟨rfl, rfl, rfl⟩

theorem isPlain_of_isUnderline (trimmed : trimEnd line = line) (underlines : isUnderline line = true) : IsPlain line :=
  ⟨trimmed, anchor?_of_isUnderline underlines, startsBlock_of_isUnderline trimmed underlines⟩

theorem isInert_heading {title underline : Text} (trimmed : trimEnd title = title) (unnamed : anchor? title = none)
    (ends : trimEnd underline = underline) (underlines : isUnderline underline = true) :
    IsInert [title, underline] :=
  .cons trimmed unnamed (fun _ => ⟨underline, rfl, underlines⟩) (.cons_plain (isPlain_of_isUnderline ends underlines) .nil)

theorem startsBlock_eq_false {p : Text → Bool} (holds : p line = true)
    (table : ∀ rest, p (".. csv-table::".toList ++ rest) = false)
    (figure : ∀ rest, p (".. figure::".toList ++ rest) = false) : startsBlock line = false := by
  have never : ∀ lead, (∀ rest, p (lead ++ rest) = false) → startsWith lead line = false := by
    intro lead never
    rw [Bool.eq_false_iff]
    intro starts
    obtain ⟨rest, found⟩ := Option.isSome_iff_exists.mp starts
    rw [afterLead?_eq_some_iff.mp found, never rest] at holds
    cases holds
  rw [startsBlock, never _ table, never _ figure]
  rfl

theorem isPlain_of_isBody (trimmed : trimEnd line = line) (body : isBody line = true) : IsPlain line :=
  ⟨trimmed, anchor?_of_isBody body, startsBlock_eq_false body (fun _ => rfl) fun _ => rfl⟩

theorem capturedMember?_eq {waiting : Bool} {member : Text → Bool} (found : capturedMember? waiting line = some member) :
    member = isListLine ∨ member = isBody := by
  rw [capturedMember?] at found
  split at found
  · cases found
  · split at found
    · cases found
      exact .inl rfl
    · split at found
      · cases found
        exact .inr rfl
      · cases found

theorem isPlain_of_captured {waiting : Bool} {first : Text} {member : Text → Bool}
    (found : capturedMember? waiting first = some member) (trimmed : trimEnd line = line)
    (inside : inBlock member line = true) : IsPlain line := by
  rw [inBlock, Bool.or_eq_true, List.isEmpty_iff] at inside
  rcases inside with rfl | inside
  · exact isPlain_nil
  · refine ⟨trimmed, capturedMember?_anchor found line inside, ?_⟩
    rcases capturedMember?_eq found with rfl | rfl
    · exact startsBlock_eq_false inside (fun _ => rfl) fun _ => rfl
    · exact startsBlock_eq_false inside (fun _ => rfl) fun _ => rfl

end

/-! ## The lines of headings and paragraphs -/

def Block.isMarkup : Block → Bool
  | .header .. | .paragraph _ => true
  | .label _ | .table .. | .figure .. => false

theorem nextMove_of_startsBlock {line : Text} (starts : startsBlock line = true) (waiting : Bool) (rest : List Text) :
    (∃ underline, nextMove waiting line rest = .heading line underline) ∨
      (∃ block, nextMove waiting line rest = .table block) ∨ ∃ lines, nextMove waiting line rest = .figure lines := by
  by_cases flat : ∀ next ∈ rest.head?, isUnderline next = false
  · rw [startsBlock, Bool.or_eq_true] at starts
    rcases starts with table | figure
    · exact .inr (.inl ⟨_, nextMove_table table flat waiting⟩)
    · exact .inr (.inr ⟨_, nextMove_figure figure flat waiting⟩)
  · obtain ⟨underline, first, underlines⟩ : ∃ underline ∈ rest.head?, isUnderline underline = true := by
      simpa using flat
    obtain ⟨below, rfl⟩ := List.head?_eq_some_iff.mp first
    have filled : isBlank line = false := by
      rw [Bool.eq_false_iff]
      intro blank
      rw [startsBlock, startsWith_of_blank blank (by decide), startsWith_of_blank blank (by decide)] at starts
      cases starts
    exact .inl ⟨underline, nextMove_heading filled (anchor?_eq_none starts fun _ => rfl) underlines waiting below⟩

theorem startsBlock_of_move {waiting : Bool} {line : Text} {rest : List Text} {move : Move}
    (made : nextMove waiting line rest = move) (heading : ∀ title underline, move ≠ .heading title underline)
    (table : ∀ block, move ≠ .table block) (figure : ∀ lines, move ≠ .figure lines) : startsBlock line = false := by
  rw [Bool.eq_false_iff]
  intro starts
  rcases nextMove_of_startsBlock starts waiting rest with ⟨_, same⟩ | ⟨_, same⟩ | ⟨_, same⟩
  · exact heading _ _ (made.symm.trans same)
  · exact table _ (made.symm.trans same)
  · exact figure _ (made.symm.trans same)

namespace Reader
variable {reader : Reader}

def EmitsInert (sources : List Source) : Prop :=
  ∀ source ∈ sources, source.block.isMarkup = true → IsInert source.block.lines

theorem emitsInert_append {first second : List Source} :
    EmitsInert (first ++ second) ↔ EmitsInert first ∧ EmitsInert second :=
  List.forall_mem_append

theorem emitsInert_placed (reader : Reader) : EmitsInert reader.placed := by
  intro source member markup
  obtain ⟨label, -, rfl⟩ := List.mem_map.mp member
  cases markup

theorem emitsInert_flushed (plain : ∀ l ∈ reader.paragraph, IsPlain l) : EmitsInert reader.flushed := by
  intro source member _
  obtain ⟨-, rfl⟩ := mem_flushed member
  exact IsInert.of_plain plain

theorem inert_move {line : Text} {rest : List Text} (trimmed : ∀ l ∈ line :: rest, trimEnd l = l)
    (plain : ∀ l ∈ reader.paragraph, IsPlain l) {move : Move}
    (made : nextMove reader.waiting.isSome line rest = move) :
    EmitsInert (reader.emitted move) ∧ ∀ l ∈ (reader.next move).paragraph, IsPlain l := by
  have placed := emitsInert_placed reader
  have flushed := emitsInert_flushed plain
  have at_line := moveAt_nextMove reader.waiting.isSome line rest
  rw [made] at at_line
  rw [List.forall_mem_cons] at trimmed
  cases at_line with
  | label found => exact ⟨placed, plain⟩
  | @heading underline unnamed filled head underlines =>
    have ends := trimmed.2 underline (List.mem_of_mem_head? head)
    have heading := isInert_heading trimmed.1 unnamed ends underlines
    refine ⟨?_, by simp [next]⟩
    rw [emitted, emitsInert_append]
    refine ⟨?_, placed⟩
    split
    · exact List.forall_mem_singleton.mpr fun _ => .cons_plain (isPlain_of_isUnderline ends underlines) heading
    · exact emitsInert_append.mpr ⟨flushed, List.forall_mem_singleton.mpr fun _ => heading⟩
  | table | figure =>
    refine ⟨?_, by simp [next]⟩
    rw [emitted, emitsInert_append]
    exact ⟨flushed, List.forall_mem_singleton.mpr (by rintro ⟨⟩)⟩
  | @captured member unnamed found =>
    have starts := startsBlock_of_move made (by rintro _ _ ⟨⟩) (by rintro _ ⟨⟩) (by rintro _ ⟨⟩)
    have inside : ∀ l ∈ line :: rest.takeWhile (inBlock member), IsPlain l := by
      refine List.forall_mem_cons.mpr ⟨⟨trimmed.1, unnamed, starts⟩, fun l inside => ?_⟩
      exact isPlain_of_captured found (trimmed.2 l ((List.takeWhile_prefix _).subset inside)) (List.mem_takeWhile_imp inside)
    refine ⟨?_, by simp [next]⟩
    rw [emitted, emitsInert_append]
    refine ⟨flushed, List.forall_mem_cons.mpr ⟨fun _ => IsInert.of_plain fun l kept => inside l ?_, placed⟩⟩
    rw [Block.lines, dropEndWhile_eq_rdropWhile] at kept
    exact (List.rdropWhile_prefix _ _).subset kept
  | blank blank =>
    rw [emitted, next]
    split
    · next empty => exact ⟨by simp [EmitsInert], by simp⟩
    · exact ⟨emitsInert_append.mpr ⟨flushed, placed⟩, by simp⟩
  | text unnamed filled =>
    have starts := startsBlock_of_move made (by rintro _ _ ⟨⟩) (by rintro _ ⟨⟩) (by rintro _ ⟨⟩)
    refine ⟨by simp [emitted, EmitsInert], ?_⟩
    exact List.forall_mem_append.mpr ⟨plain, List.forall_mem_singleton.mpr ⟨trimmed.1, unnamed, starts⟩⟩

theorem inert_sources {lines : List Text} (trimmed : ∀ line ∈ lines, trimEnd line = line)
    (plain : ∀ line ∈ reader.paragraph, IsPlain line) :
    EmitsInert (reader.sources lines) := by
  induction reader, lines using sources.induct with
  | case1 reader =>
    rw [sources, emitsInert_append]
    exact ⟨emitsInert_flushed plain, emitsInert_placed reader⟩
  | case2 reader line rest move ih =>
    obtain ⟨emits, still⟩ := inert_move trimmed plain rfl
    rw [sources, emitsInert_append]
    refine ⟨emits, ih (fun l member => ?_) still⟩
    exact trimmed l (List.mem_cons_of_mem _ (List.mem_of_mem_drop member))

end Reader

theorem inert_blocks (lines : List Text) : ∀ block ∈ blocks lines, block.isMarkup = true → IsInert block.lines := by
  rw [blocks_eq_map_sources, List.forall_mem_map]
  refine Reader.inert_sources ?_ (by simp)
  rw [List.forall_mem_map]
  exact fun line _ => trimEnd_trimEnd line

/-! ## What is read from inert lines -/

inductive Block.IsSettled : Block → Prop
  | header {overlined title underline} : IsHeader overlined title underline →
      IsSettled (.header (if overlined then some underline else none) title underline)
  | paragraph {lines} : IsParagraph lines → IsSettled (.paragraph lines)

theorem IsInert.exists_move {line : Text} {rest : List Text} (inert : IsInert (line :: rest)) :
    (isBlank line = true ∧ nextMove false line rest = .blank line) ∨
      (IsTitle line ∧ ∃ underline below, rest = underline :: below ∧ isUnderline underline = true ∧
        nextMove false line rest = .heading line underline) ∨
      (IsTitle line ∧ startsBlock line = false ∧ (∀ next ∈ rest.head?, isUnderline next = false) ∧
        nextMove false line rest = .text line) := by
  obtain _ | ⟨trimmed, unnamed, titled, -⟩ := inert
  cases filled : isBlank line with
  | true => exact .inl ⟨rfl, nextMove_of_blank false filled rest⟩
  | false =>
    have title : IsTitle line := ⟨trimmed, filled, unnamed⟩
    by_cases flat : ∀ next ∈ rest.head?, isUnderline next = false
    · have starts : startsBlock line = false := by
        rw [Bool.eq_false_iff]
        intro starts
        obtain ⟨underline, first, underlines⟩ := titled starts
        rw [flat underline first] at underlines
        cases underlines
      exact .inr (.inr ⟨title, starts, flat, nextMove_text title starts rfl flat⟩)
    · obtain ⟨underline, first, underlines⟩ : ∃ underline ∈ rest.head?, isUnderline underline = true := by
        simpa using flat
      obtain ⟨below, rfl⟩ := List.head?_eq_some_iff.mp first
      exact .inr (.inl ⟨title, underline, below, rfl, underlines, nextMove_heading filled unnamed underlines false below⟩)

theorem isParagraph_append {lines : List Text} {line : Text} (title : IsTitle line) (starts : startsBlock line = false)
    (opened : lines ≠ [] → IsParagraph lines ∧ isUnderline line = false) : IsParagraph (lines ++ [line]) := by
  cases lines with
  | nil => exact ⟨by simp, by simpa using title, by simpa using starts, by simp⟩
  | cons first more =>
    obtain ⟨⟨_, titles, plain, flat⟩, level⟩ := opened (by simp)
    refine ⟨by simp, List.forall_mem_append.mpr ⟨titles, by simpa using title⟩, ?_, ?_⟩
    · exact List.forall_mem_append.mpr ⟨plain, by simpa using starts⟩
    · exact List.forall_mem_append.mpr ⟨flat, by simpa using level⟩

namespace Reader

structure IsSettled (reader : Reader) (lines : List Text) : Prop where
  waiting : reader.waiting = none
  paragraph : reader.paragraph ≠ [] →
    IsParagraph reader.paragraph ∧ ∀ line ∈ lines.head?, isUnderline line = false

theorem settled_flushed {reader : Reader} {lines : List Text} (settled : reader.IsSettled lines) :
    ∀ source ∈ reader.flushed, source.block.IsSettled := by
  intro source member
  obtain ⟨opened, rfl⟩ := mem_flushed member
  exact .paragraph (settled.paragraph opened).1

theorem settled_move {reader : Reader} {line : Text} {rest : List Text} (inert : IsInert (line :: rest))
    (settled : reader.IsSettled (line :: rest)) :
    (∀ source ∈ reader.emitted (nextMove reader.waiting.isSome line rest), source.block.IsSettled) ∧
      IsInert (belowMove reader.waiting.isSome line rest) ∧
      (reader.next (nextMove reader.waiting.isSome line rest)).IsSettled (belowMove reader.waiting.isSome line rest) := by
  have unplaced : reader.placed = [] := by rw [placed, settled.waiting]; rfl
  have flushed := settled_flushed settled
  have free : reader.waiting.isSome = false := by rw [settled.waiting]; rfl
  rw [belowMove, free]
  rcases inert.exists_move with ⟨blank, made⟩ | ⟨title, underline, below, rfl, underlines, made⟩ | ⟨title, starts, flat, made⟩
  · rw [made]
    refine ⟨?_, inert.tail, ?_⟩
    · rw [emitted, unplaced, List.append_nil]
      split
      · simp
      · exact flushed
    · rw [next]
      split
      · exact ⟨settled.waiting, by simp⟩
      · exact ⟨rfl, by simp⟩
  · rw [made]
    refine ⟨?_, inert.tail.tail, rfl, by simp [next]⟩
    have ends := (inert.forall_mem underline (by simp)).1
    rw [emitted, unplaced, List.append_nil]
    split
    · next overlined =>
      -- The overline is open as a paragraph, so the title below it is no underline.
      have opened : reader.paragraph ≠ [] := by simp [overlined.1]
      have apart := (settled.paragraph opened).2 line rfl
      exact List.forall_mem_singleton.mpr (@Block.IsSettled.header true _ _ ⟨title, ends, underlines, fun _ => apart⟩)
    · refine List.forall_mem_append.mpr ⟨flushed, List.forall_mem_singleton.mpr ?_⟩
      exact @Block.IsSettled.header false _ _ ⟨title, ends, underlines, by rintro ⟨⟩⟩
  · rw [made]
    have opened : reader.paragraph ≠ [] → IsParagraph reader.paragraph ∧ isUnderline line = false := fun some =>
      (settled.paragraph some).imp_right fun level => level line rfl
    exact ⟨by simp [emitted], inert.tail, settled.waiting, fun _ => ⟨isParagraph_append title starts opened, flat⟩⟩

theorem settled_sources {reader : Reader} {lines : List Text} (inert : IsInert lines)
    (settled : reader.IsSettled lines) : ∀ source ∈ reader.sources lines, source.block.IsSettled := by
  induction reader, lines using sources.induct with
  | case1 reader =>
    have unplaced : reader.placed = [] := by rw [placed, settled.waiting]; rfl
    rw [sources, unplaced, List.append_nil]
    exact settled_flushed settled
  | case2 reader line rest move ih =>
    obtain ⟨emits, below, still⟩ := settled_move inert settled
    rw [sources, List.forall_mem_append]
    exact ⟨emits, ih below still⟩

end Reader

theorem settled_blocks {lines : List Text} (inert : IsInert lines) : ∀ block ∈ blocks lines, block.IsSettled := by
  rw [blocks_eq_map_sources, List.forall_mem_map, sources, inert.map_trimEnd]
  exact Reader.settled_sources inert ⟨rfl, by simp⟩

theorem exists_bodies {settled : List Block} (all : ∀ block ∈ settled, block.IsSettled) : ∃ bodies : List Body,
    (∀ body ∈ bodies, body.IsSound ∧ ∀ line, body.endsAbove line = true) ∧
      bodies.flatMap (Body.blocks none) = settled ∧
      bodies.flatMap (fun body => body.lines ++ [[]]) = settled.flatMap fun block => block.lines ++ [[]] := by
  induction settled with
  | nil => exact ⟨[], by simp, rfl, rfl⟩
  | cons block settled ih =>
    rw [List.forall_mem_cons] at all
    obtain ⟨bodies, sound, blocks, lines⟩ := ih all.2
    have exists_body : ∃ body : Body, (body.IsSound ∧ ∀ line, body.endsAbove line = true) ∧
        body.blocks none = [block] ∧ body.lines = block.lines := by
      cases all.1 with
      | @header overlined title underline header =>
        exact ⟨.header overlined title underline, ⟨header, fun _ => rfl⟩, rfl, by cases overlined <;> rfl⟩
      | @paragraph lines paragraph => exact ⟨.paragraph lines, ⟨paragraph, fun _ => rfl⟩, rfl, rfl⟩
    obtain ⟨body, first, one, same⟩ := exists_body
    refine ⟨body :: bodies, List.forall_mem_cons.mpr ⟨first, sound⟩, ?_, ?_⟩
    · rw [List.flatMap_cons, one, blocks]
      rfl
    · rw [List.flatMap_cons, same, lines, List.flatMap_cons]

theorem blocks_of_settled {settled : List Block} (all : ∀ block ∈ settled, block.IsSettled) :
    blocks (settled.flatMap fun block => block.lines ++ [[]]) = settled := by
  obtain ⟨bodies, sound, blocks, lines⟩ := exists_bodies all
  have entries : IsSound (bodies.map fun body => { body := body }) := by
    refine ⟨?_, ?_⟩
    · rw [List.forall_mem_map]
      exact fun body member => ⟨(sound body member).1, by rintro _ ⟨⟩, by rintro ⟨⟩⟩
    · refine List.Pairwise.isChain (List.pairwise_of_forall_mem_list fun above member below _ _ line _ => ?_)
      obtain ⟨body, inside, rfl⟩ := List.mem_map.mp member
      exact (sound body inside).2 line
  have read := blocks_written entries
  rw [written, List.flatMap_map, List.flatMap_map] at read
  rw [← lines]
  exact read.trans blocks

end DocPress.Document
