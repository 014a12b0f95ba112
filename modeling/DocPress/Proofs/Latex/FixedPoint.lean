import DocPress.Latex.Render
import DocPress.Proofs.Document.Inert

namespace DocPress.Latex
open Text Markup Document

/-! ## Rendered lines are inert -/

structure IsEnded (t : Text) : Prop where
  trimmed : trimEnd t = t
  filled : t ≠ []

theorem IsEnded.append {t : Text} (ended : IsEnded t) (lead : Text) : IsEnded (lead ++ t) :=
  ⟨trimEnd_append_trimmed ended.trimmed ended.filled lead, by simp [ended.filled]⟩

theorem isEnded_braced (argument : Text) : IsEnded (braced argument) :=
  ⟨trimEnd_append_trimmed rfl (by simp) _, by simp [braced]⟩

theorem isEnded_source (command : Command) : IsEnded command.source := by
  cases command with
  | saveFootnoteCounter | beginTable | endTable | centering | endTabular | topRule | midRule | bottomRule | beginFigure
  | endFigure => exact ⟨by decide +kernel, by decide +kernel⟩
  | restoreFootnoteCounter | rowColors | caption | label | beginTabular | rowColor | graphics =>
    exact (isEnded_braced _).append _
  | footnoteText offset text =>
    exact ((isEnded_braced text).append [']']).append ("\\footnotetext[".toList ++ counterPlus offset)
  | row cells => exact IsEnded.append ⟨by decide +kernel, by decide +kernel⟩ _

theorem inert_commandIsland (commands : List Command) : IsInert (commandIsland commands) := by
  have raw : IsPlain ".. raw:: latex".toList := ⟨by decide +kernel, by decide +kernel, by decide +kernel⟩
  have lead : IsInert [[], ".. raw:: latex".toList, []] :=
    .cons_plain isPlain_nil (.cons_plain raw (.cons_plain isPlain_nil .nil))
  have body : IsInert ((commands.map Command.source).map ("    ".toList ++ ·)) := by
    refine IsInert.of_plain ?_
    rw [List.map_map, List.forall_mem_map]
    intro command _
    exact isPlain_of_isBody ((isEnded_source command).append _).trimmed rfl
  exact (lead.append body).append (.cons_plain isPlain_nil .nil)

section
variable (style : Style) (counter : FootnoteCounter)

theorem inert_renderElement {block : Block} (inert : block.isMarkup = true → IsInert block.lines) :
    IsInert (renderElement style counter (.ofBlock block)) := by
  cases block with
  | header | paragraph => exact inert rfl
  | label | table | figure => exact inert_commandIsland _

theorem inert_renderLines {blocks : List Block} (inert : ∀ block ∈ blocks, block.isMarkup = true → IsInert block.lines) :
    IsInert (renderLines style counter (blocks.map .ofBlock)) := by
  induction blocks generalizing counter with
  | nil => exact .nil
  | cons block blocks ih =>
    rw [List.forall_mem_cons] at inert
    exact (inert_renderElement style counter inert.1).append (.cons_plain isPlain_nil (ih _ inert.2))

/-! ## Rendering once is enough -/

theorem renderLines_of_settled {blocks : List Block} (settled : ∀ block ∈ blocks, block.IsSettled) :
    renderLines style counter (blocks.map .ofBlock) = blocks.flatMap fun block => block.lines ++ [[]] := by
  induction blocks generalizing counter with
  | nil => rfl
  | cons block blocks ih =>
    rw [List.forall_mem_cons] at settled
    have same : renderElement style counter (.ofBlock block) = block.lines := by
      cases settled.1 <;> rfl
    rw [List.map_cons, renderLines, same, ih _ settled.2, List.flatMap_cons, List.append_assoc]
    rfl

end

/-- What is read from rendered lines are headings and paragraphs. Rendered again they give the same lines but for blank
ones, and these are read as the same headings and paragraphs. -/
theorem rendering_settles (lines : List Text) (style : Style) (counter later : FootnoteCounter) :
    let rendered := renderLines style counter (parse lines)
    let again := renderLines style later (parse rendered)
    (∀ element ∈ parse rendered, (∃ overline title underline, element = .header overline title underline) ∨
        ∃ texts, element = .paragraph texts) ∧
      again.filter isFilled = rendered.filter isFilled ∧ parse again = parse rendered := by
  intro rendered again
  have inert : IsInert rendered := inert_renderLines style counter (inert_blocks lines)
  have settled := settled_blocks inert
  have shown : again = (blocks rendered).flatMap fun block => block.lines ++ [[]] :=
    renderLines_of_settled style later settled
  refine ⟨?_, ?_, ?_⟩
  · rw [parse, List.forall_mem_map]
    intro block member
    cases settled block member with
    | header => exact .inl ⟨_, _, _, rfl⟩
    | paragraph => exact .inr ⟨_, rfl⟩
  · have kept := filled_blocks rendered
    rw [inert.map_trimEnd, filter_isContent inert.anchors] at kept
    rw [shown, ← kept, List.filter_flatMap, List.filter_flatMap]
    exact List.flatMap_congr fun block _ => by rw [List.filter_append]; exact List.append_nil _
  · rw [shown, parse, blocks_of_settled settled, parse]

end DocPress.Latex
