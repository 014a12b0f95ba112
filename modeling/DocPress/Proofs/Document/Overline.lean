import DocPress.Contents
import DocPress.Document.Element
import DocPress.Proofs.Document.Positions

namespace DocPress.Contents
open Text

theorem hasOverline_iff {before : List Text} {underline : Text} : hasOverline before underline = true ↔
    (∃ candidate ∈ before.head?, trimEnd candidate = trimEnd underline) ∧
      ∀ separator ∈ before[1]?, isBlank separator = true := by
  match before with
  | [] | [_] | _ :: _ :: _ => simp [hasOverline]

theorem hasOverline_map_trimEnd (before : List Text) (underline : Text) :
    hasOverline (before.map trimEnd) (trimEnd underline) = hasOverline before underline := by
  rw [Bool.eq_iff_iff, hasOverline_iff, hasOverline_iff]
  simp

end DocPress.Contents

namespace DocPress.Document
open Text Markup Heading Contents

/-! ## The lines of blocks with a body -/

theorem flat_captured {waiting : Bool} {line : Text} {member : Text → Bool}
    (found : capturedMember? waiting line = some member) :
    isUnderline line = false ∧ ∀ other, member other = true → isUnderline other = false := by
  rw [capturedMember?] at found
  split at found
  · cases found
  · split at found
    · next item =>
      cases found
      exact ⟨isUnderline_eq_false item fun marker _ => by cases marker <;> rfl, fun _ => isUnderline_of_isListLine⟩
    · split at found
      · next directive =>
        cases found
        have start := (Bool.and_eq_true_iff.mp directive).1
        exact ⟨isUnderline_eq_false start fun marker _ => by cases marker <;> rfl, fun _ => isUnderline_of_isBody⟩
      · cases found

theorem flat_inBlock {line : Text} {member : Text → Bool} (first : isUnderline line = false)
    (flat : ∀ other, member other = true → isUnderline other = false) (rest : List Text) :
    ∀ other ∈ line :: rest.takeWhile (inBlock member), isUnderline other = false := by
  refine List.forall_mem_cons.mpr ⟨first, fun other among => ?_⟩
  have inside := List.mem_takeWhile_imp among
  rw [inBlock, Bool.or_eq_true, List.isEmpty_iff] at inside
  rcases inside with rfl | inside
  · rfl
  · exact flat other inside

/-! ## What a reader has behind it -/

/-- A reader that has the lines `above` behind it, from the nearest up. A paragraph that is being read reaches to the
last of them, and is nothing but this line where it is an underline with no other line directly above. -/
structure Reader.Traced (above : List Text) (reader : Reader) : Prop where
  line : reader.line = above.length
  previous : reader.previous = above.head?
  open_below : reader.paragraph ≠ [] → ∃ line ∈ above.head?, isBlank line = false
  alone : ∀ line ∈ above.head?, isUnderline line = true → (∀ separator ∈ above[1]?, isBlank separator = true) →
    reader.paragraph = [line]
  opened : ∀ underline, isUnderline underline = true → reader.Overlined underline → reader.opened + 1 = reader.line

namespace Reader
variable {reader : Reader} {above rest : List Text} {line : Text} {move : Move}

theorem traced_start : Traced [] {} where
  line := rfl
  previous := rfl
  open_below filled := absurd rfl filled
  alone := by rintro _ ⟨⟩
  opened _ _ overlined := by cases overlined.1

theorem previous_next (reader : Reader) (move : Move) : (reader.next move).previous = move.lines.getLast? := by
  cases move with
  | blank line =>
    rw [next]
    split <;> rfl
  | label | heading | table | figure | captured | text => rfl

theorem Traced.next_of_closed (traced : reader.Traced above) (some : move.lines ≠ [])
    (closed : (reader.next move).paragraph = [])
    (crowded : ∀ last ∈ move.lines.getLast?, isUnderline last = true →
      ∃ separator ∈ (move.lines.reverse ++ above)[1]?, isBlank separator = false) :
    (reader.next move).Traced (move.lines.reverse ++ above) where
  line := by rw [line_next, traced.line, List.length_append, List.length_reverse, Nat.add_comm]
  previous := by rw [previous_next, List.head?_append_of_ne_nil _ (by simpa using some), List.head?_reverse]
  open_below filled := absurd closed filled
  alone last among underlines separated := by
    rw [List.head?_append_of_ne_nil _ (by simpa using some), List.head?_reverse] at among
    obtain ⟨separator, position, filled⟩ := crowded last among underlines
    rw [separated separator position] at filled
    cases filled
  opened _ _ overlined := by cases closed.symm.trans overlined.1

theorem Traced.next_of_flat (traced : reader.Traced above) (some : move.lines ≠ [])
    (closed : (reader.next move).paragraph = []) (flat : ∀ other ∈ move.lines, isUnderline other = false) :
    (reader.next move).Traced (move.lines.reverse ++ above) := by
  refine traced.next_of_closed some closed fun last among underlines => ?_
  rw [flat last (List.mem_of_getLast? among)] at underlines
  cases underlines

theorem Traced.next_label (traced : reader.Traced above) {anchor : Text} (found : Markup.anchor? line = some anchor) :
    (reader.next (.label line anchor)).Traced (line :: above) := by
  have plain : isUnderline line = false := eq_false_of_anchor? found anchor?_of_isUnderline
  have filled : isBlank line = false := eq_false_of_anchor? found anchor?_of_isBlank
  refine ⟨congrArg (· + 1) traced.line, rfl, fun _ => ⟨line, rfl, filled⟩, ?_, fun underline underlines overlined => ?_⟩
  · rintro _ ⟨⟩ underlines
    rw [plain] at underlines
    cases underlines
  · obtain rfl : line = underline := Option.some.inj overlined.2
    rw [plain] at underlines
    cases underlines

theorem Traced.next_text (traced : reader.Traced above) (filled : isBlank line = false) :
    (reader.next (.text line)).Traced (line :: above) where
  line := congrArg (· + 1) traced.line
  previous := rfl
  open_below _ := ⟨line, rfl, filled⟩
  alone := by
    rintro _ ⟨⟩ _ separated
    -- a paragraph that is open would reach to the line above, which is blank
    have closed : reader.paragraph = [] := by
      by_contra opened
      obtain ⟨separator, position, visible⟩ := traced.open_below opened
      rw [List.head?_eq_getElem?] at position
      rw [separated separator position] at visible
      cases visible
    change reader.paragraph ++ [line] = [line]
    rw [closed, List.nil_append]
  opened underline _ overlined := by
    have closed : reader.paragraph = [] := by
      have whole : reader.paragraph ++ [line] = [underline] := overlined.1
      simpa using congrArg List.length whole
    change (if reader.paragraph.isEmpty then reader.line else reader.opened) + 1 = reader.line + 1
    rw [closed]
    rfl

theorem Traced.next (traced : reader.Traced above) (made : MoveAt reader.waiting.isSome line rest move) :
    (reader.next move).Traced (move.lines.reverse ++ above) := by
  cases made with
  | label found => exact traced.next_label found
  | @heading underline plain filled head underlines =>
    exact traced.next_of_closed (List.cons_ne_nil _ _) rfl fun _ _ _ => ⟨line, rfl, filled⟩
  | table plain start =>
    exact traced.next_of_flat (List.cons_ne_nil _ _) rfl (forall_mem_tableBlock (isUnderline_of_directive start)
      (fun _ => isUnderline_of_isBlank) (fun _ => isUnderline_of_isFootnoteStart)
      (fun _ => isUnderline_of_isFilledBody) rest)
  | figure plain start =>
    exact traced.next_of_flat (List.cons_ne_nil _ _) rfl
      (flat_inBlock (isUnderline_of_directive start) (fun _ => isUnderline_of_isBody) rest)
  | captured plain found =>
    obtain ⟨first, flat⟩ := flat_captured found
    exact traced.next_of_flat (List.cons_ne_nil _ _) rfl (flat_inBlock first flat rest)
  | blank blank =>
    refine traced.next_of_flat (List.cons_ne_nil _ _) ?_ (by simpa [Move.lines] using isUnderline_of_isBlank blank)
    rw [next]
    split <;> rfl
  | text plain filled => exact traced.next_text filled

/-! ## Headings -/

theorem Traced.hasOverline_iff (traced : reader.Traced above) (trimmed : ∀ other ∈ above, trimEnd other = other)
    {underline : Text} (underlines : isUnderline underline = true) (trimmed' : trimEnd underline = underline) :
    hasOverline above underline = true ↔
      reader.Overlined underline ∧ ∀ separator ∈ above[1]?, isBlank separator = true := by
  rw [Contents.hasOverline_iff]
  constructor
  · rintro ⟨⟨candidate, top, same⟩, separated⟩
    rw [trimmed candidate (List.mem_of_head? top), trimmed'] at same
    subst same
    exact ⟨⟨traced.alone candidate top underlines separated, traced.previous.trans top⟩, separated⟩
  · rintro ⟨overlined, separated⟩
    exact ⟨⟨underline, traced.previous.symm.trans overlined.2, rfl⟩, separated⟩

theorem Traced.exists_above (traced : reader.Traced above) {underline : Text} (underlines : isUnderline underline = true)
    (overlined : reader.Overlined underline) : ∃ others, above = underline :: others ∧ reader.opened = others.length := by
  obtain ⟨others, rfl⟩ := List.head?_eq_some_iff.mp (traced.previous.symm.trans overlined.2)
  have opened := traced.opened underline underlines overlined
  rw [traced.line, List.length_cons] at opened
  exact ⟨others, rfl, Nat.succ.inj opened⟩

end Reader

/-- Where a heading stands among the lines of a document, and when inlining would find its overline. -/
structure Headed (lines : List Text) (first : Nat) (overline : Option Text) (title underline : Text) : Prop where
  above : ∀ line ∈ overline, lines[first]? = some line ∧ line = underline
  title : lines[first + overline.toList.length]? = some title
  below : lines[first + overline.toList.length + 1]? = some underline
  agrees : hasOverline (lines.take (first + overline.toList.length)).reverse underline = true ↔
    overline.isSome = true ∧ ∀ line ∈ (lines.take first).getLast?, isBlank line = true

namespace Reader
variable {reader : Reader} {above rest lines : List Text} {line title underline : Text} {overline : Option Text}
  {move : Move} {source : Source}

theorem header_of_emitted (member : source ∈ reader.emitted move) (header : source.block = .header overline title underline) :
    move = .heading title underline ∧
      (reader.Overlined underline ∧ overline = some underline ∧ source.first = reader.opened ∨
        ¬reader.Overlined underline ∧ overline = none ∧ source.first = reader.line) := by
  have unflushed : source ∉ reader.flushed := by
    intro member
    obtain ⟨_, rfl⟩ := mem_flushed member
    cases header
  have unplaced : source ∉ reader.placed := by
    intro member
    obtain ⟨_, _, rfl⟩ := mem_placed member
    cases header
  cases move with
  | label => exact absurd member unplaced
  | text => cases member
  | blank =>
    rw [emitted] at member
    split at member
    · cases member
    · exact absurd member (List.not_mem_append unflushed unplaced)
  | table | figure =>
    obtain rfl := List.mem_singleton.mp ((List.mem_append.mp member).resolve_left unflushed)
    cases header
  | captured =>
    rcases List.mem_cons.mp ((List.mem_append.mp member).resolve_left unflushed) with rfl | member
    · cases header
    · exact absurd member unplaced
  | heading =>
    have member := (List.mem_append.mp member).resolve_right unplaced
    split at member
    · next overlined =>
      obtain rfl := List.mem_singleton.mp member
      cases header
      exact ⟨rfl, .inl ⟨overlined, rfl, rfl⟩⟩
    · next plain =>
      obtain rfl := List.mem_singleton.mp ((List.mem_append.mp member).resolve_left unflushed)
      cases header
      exact ⟨rfl, .inr ⟨plain, rfl, rfl⟩⟩

theorem Traced.headed_emitted (traced : reader.Traced above) (whole : above.reverse ++ line :: rest = lines)
    (trimmed : ∀ other ∈ lines, trimEnd other = other) (made : MoveAt reader.waiting.isSome line rest move)
    (member : source ∈ reader.emitted move) (header : source.block = .header overline title underline) :
    Headed lines source.first overline title underline := by
  obtain ⟨rfl, origin⟩ := header_of_emitted member header
  obtain _ | @⟨_, plain, filled, head, underlines⟩ := made
  obtain ⟨more, rfl⟩ := List.head?_eq_some_iff.mp head
  subst whole
  have kept : ∀ other ∈ above, trimEnd other = other := fun other among =>
    trimmed other (List.mem_append_left _ (List.mem_reverse.mpr among))
  have agrees := traced.hasOverline_iff kept underlines (trimmed underline (by simp))
  have before : ((above.reverse ++ line :: underline :: more).take above.length).reverse = above := by
    rw [List.take_left' List.length_reverse, List.reverse_reverse]
  have titled : (above.reverse ++ line :: underline :: more)[above.length]? = some line := by
    simp
  have below : (above.reverse ++ line :: underline :: more)[above.length + 1]? = some underline := by
    rw [List.getElem?_append_right (by simp)]
    simp
  rcases origin with ⟨overlined, rfl, first⟩ | ⟨apart, rfl, first⟩
  · obtain ⟨others, rfl, opened⟩ := traced.exists_above underlines overlined
    rw [opened] at first
    have split : (underline :: others).reverse ++ line :: underline :: more =
        others.reverse ++ underline :: line :: underline :: more := by simp
    have start : ((underline :: others).reverse ++ line :: underline :: more)[others.length]? = some underline := by
      rw [split]
      simp
    have higher : (((underline :: others).reverse ++ line :: underline :: more).take others.length).getLast? =
        (underline :: others)[1]? := by
      rw [split, List.take_left' List.length_reverse, List.getLast?_reverse, List.head?_eq_getElem?]
      rfl
    have position : source.first + (some underline).toList.length = (underline :: others).length := by
      rw [first]
      rfl
    refine ⟨?_, by rw [position]; exact titled, by rw [position]; exact below, ?_⟩
    · rintro _ ⟨⟩
      exact ⟨by rw [first, start], rfl⟩
    · rw [position, before, agrees, first, higher]
      simp [overlined]
  · have position : source.first + (none : Option Text).toList.length = above.length := by
      rw [first, traced.line]
      rfl
    refine ⟨by rintro _ ⟨⟩, by rw [position]; exact titled, by rw [position]; exact below, ?_⟩
    rw [position, before, agrees]
    simp [apart]

theorem Traced.headed_sources (traced : reader.Traced above) (whole : above.reverse ++ rest = lines)
    (trimmed : ∀ other ∈ lines, trimEnd other = other) (member : source ∈ reader.sources rest)
    (header : source.block = .header overline title underline) : Headed lines source.first overline title underline := by
  induction reader, rest using sources.induct generalizing above with
  | case1 reader =>
    rw [sources] at member
    rcases List.mem_append.mp member with member | member
    · obtain ⟨_, rfl⟩ := mem_flushed member
      cases header
    · obtain ⟨_, _, rfl⟩ := mem_placed member
      cases header
  | case2 reader line rest move =>
    rename_i ih
    have made := moveAt_nextMove reader.waiting.isSome line rest
    rw [sources] at member
    rcases List.mem_append.mp member with member | member
    · exact traced.headed_emitted whole trimmed made member header
    · refine ih (traced.next made) ?_ member
      rw [List.reverse_append, List.reverse_reverse, List.append_assoc, lines_nextMove, whole]

end Reader

theorem headed_sources {lines : List Text} {source : Source} {overline : Option Text} {title underline : Text}
    (member : source ∈ sources lines) (header : source.block = .header overline title underline) :
    Headed (lines.map trimEnd) source.first overline title underline := by
  refine Reader.traced_start.headed_sources rfl (fun line among => ?_) member header
  obtain ⟨line, _, rfl⟩ := List.mem_map.mp among
  exact trimEnd_trimEnd line

/-- Inlining finds the overline of a heading exactly where the parser does and no line stands directly above it that is
not blank. -/
theorem hasOverline_header_iff (lines : List Text) :
    parse lines = (sources lines).map (fun source => Element.ofBlock source.block) ∧
      ∀ source ∈ sources lines, ∀ overline title underline, source.block = .header overline title underline →
        ∃ line next, lines[source.first + overline.toList.length]? = some line ∧ trimEnd line = title ∧
          lines[source.first + overline.toList.length + 1]? = some next ∧ trimEnd next = underline ∧
          (∀ above ∈ overline, (lines[source.first]?).map trimEnd = some above ∧ above = underline) ∧
          (hasOverline (lines.take (source.first + overline.toList.length)).reverse next = true ↔
            overline.isSome = true ∧ ∀ above ∈ (lines.take source.first).getLast?, isBlank above = true) := by
  refine ⟨by rw [parse, blocks_eq_map_sources, List.map_map]; rfl, fun source member overline title underline header => ?_⟩
  have headed := headed_sources member header
  have titled := headed.title
  have below := headed.below
  have above := headed.above
  have agrees := headed.agrees
  rw [List.getElem?_map, Option.map_eq_some_iff] at titled below
  rw [List.getElem?_map] at above
  obtain ⟨line, at_line, rfl⟩ := titled
  obtain ⟨next, at_next, rfl⟩ := below
  refine ⟨line, next, at_line, rfl, at_next, rfl, above, ?_⟩
  rw [← List.map_take, ← List.map_take, ← List.map_reverse, hasOverline_map_trimEnd, List.getLast?_map] at agrees
  simpa using agrees

theorem hasOverline_header_iff_separated :
    let lines := ["Text".toList, "".toList, "=====".toList, "Title".toList, "=====".toList]
    ⟨.header (some "=====".toList) "Title".toList "=====".toList, 2, none⟩ ∈ sources lines ∧
      hasOverline (lines.take 3).reverse "=====".toList = true := by
  intro lines
  have member : ⟨.header (some "=====".toList) "Title".toList "=====".toList, 2, none⟩ ∈ sources lines := by decide +kernel
  refine ⟨member, ?_⟩
  obtain ⟨_, next, _, _, below, _, _, agrees⟩ := (hasOverline_header_iff lines).2 _ member _ _ _ rfl
  cases below
  exact agrees.mpr ⟨rfl, by decide +kernel⟩

theorem not_hasOverline_below_label :
    ¬∀ (lines : List Text) (source : Source) (overline : Option Text) (title underline : Text),
      (∀ line ∈ lines, trimEnd line = line) → source ∈ sources lines → source.block = .header overline title underline →
      (hasOverline (lines.take (source.first + overline.toList.length)).reverse underline = true ↔
        overline.isSome = true) := by
  intro agrees
  have labeled := agrees [".. _a:".toList, "===".toList, "Release Notes".toList, "===".toList]
    ⟨.header (some "===".toList) "Release Notes".toList "===".toList, 1, none⟩ _ _ _ (by decide +kernel) (by decide +kernel) rfl
  revert labeled
  decide +kernel

end DocPress.Document
