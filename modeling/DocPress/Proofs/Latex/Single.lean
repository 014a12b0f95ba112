import DocPress.Proofs.Document.Single
import DocPress.Proofs.Latex.Marks

namespace DocPress.Latex
open Text Document

/-! ## Numbers -/

section
variable {c : Char} (plain : c.isDigit = false)
include plain

theorem not_mem_layout (outside : c ∉ ['.', 'e', '-']) (layout : Decimal.Layout) (decimal : Decimal.Scientific) :
    c ∉ layout.text decimal := by
  have digits : c ∉ dropEndWhile (· == '0') (ofNat decimal.digits) := by
    rw [dropEndWhile_eq_rdropWhile]
    exact not_mem_of_subset (not_mem_ofNat plain _) (List.rdropWhile_prefix _ _).subset
  have zero : c ≠ '0' := by
    rintro rfl
    cases plain
  have zeros : ∀ n, c ∉ List.replicate n '0' := fun n member => zero (List.eq_of_mem_replicate member)
  simp only [List.mem_cons, List.not_mem_nil, or_false, not_or] at outside
  obtain ⟨point, exponent, minus⟩ := outside
  unfold Decimal.Layout.text
  generalize dropEndWhile (· == '0') (ofNat decimal.digits) = digits at *
  dsimp only
  split
  · split
    · exact List.not_mem_append (List.not_mem_append (by simp [zero, point]) (zeros _)) digits
    · split
      · exact List.not_mem_append (List.not_mem_append digits (zeros _)) (by simp [zero, point])
      · refine List.not_mem_append (fun member => digits (List.mem_of_mem_take member)) ?_
        exact List.not_mem_cons_of_ne_of_not_mem point fun member => digits (List.mem_of_mem_drop member)
  · refine List.not_mem_append ?_ (List.not_mem_cons_of_ne_of_not_mem exponent ?_)
    · split
      · simpa [point] using digits
      · exact digits
    · split
      · exact List.not_mem_cons_of_ne_of_not_mem minus (not_mem_ofNat plain _)
      · exact not_mem_ofNat plain _

theorem not_mem_quotientText (outside : c ∉ ['.', 'e', '-', 'N', 'a', 'i', 'n', 'f']) (numerator denominator : Nat) :
    c ∉ Decimal.quotientText numerator denominator := by
  have zero : c ≠ '0' := by
    rintro rfl
    cases plain
  have written : c ∉ ['.', 'e', '-'] := fun member => outside (List.mem_append_left _ member)
  have words : c ∉ "NaN".toList ∧ c ∉ "inf".toList ∧ c ∉ "0.0".toList := by
    simp only [List.mem_cons, List.not_mem_nil, or_false, not_or] at outside
    simp [outside, zero]
  unfold Decimal.quotientText
  split
  · split
    · exact words.1
    · exact words.2.1
  · split
    · exact words.2.2
    · exact not_mem_layout plain written _ _

end

theorem single_columns (columns : Columns) : '\n' ∉ columns.source := by
  cases columns with
  | equal count => exact fun member => absurd (List.eq_of_mem_replicate member) (by decide)
  | shares widths units =>
    refine not_mem_joinWith (by decide) fun t member => ?_
    obtain ⟨width, -, rfl⟩ := List.mem_map.mp member
    exact List.not_mem_append (List.not_mem_append (by decide) (not_mem_quotientText (by decide) (by decide) width units)) (by decide)

theorem single_counterPlus (offset : Nat) : '\n' ∉ counterPlus offset :=
  List.not_mem_append (by decide) (not_mem_ofNat (by decide) offset)

theorem single_braced {argument : Text} (single : '\n' ∉ argument) : '\n' ∉ braced argument :=
  List.not_mem_append (List.not_mem_cons_of_ne_of_not_mem (by decide) single) (by decide)

/-! ## Commands -/

def Command.texts : Command → List Text
  | footnoteText _ text => [text]
  | rowColors even odd => [even, odd]
  | caption text => [text]
  | label anchor => [anchor]
  | rowColor color => [color]
  | row cells => cells
  | graphics width path => [width, path]
  | _ => []

theorem single_source {command : Command} (single : ∀ t ∈ command.texts, '\n' ∉ t) : '\n' ∉ command.source := by
  cases command with
  | saveFootnoteCounter | beginTable | endTable | centering | endTabular | topRule | midRule | bottomRule | beginFigure
  | endFigure => decide +kernel
  | restoreFootnoteCounter offset => exact List.not_mem_append (by decide) (single_braced (single_counterPlus offset))
  | beginTabular columns => exact List.not_mem_append (by decide) (single_braced (single_columns columns))
  | footnoteText offset text =>
    have body := single_braced (single text (List.mem_singleton_self text))
    exact List.not_mem_append (List.not_mem_append (by decide) (single_counterPlus offset))
      (List.not_mem_cons_of_ne_of_not_mem (by decide) body)
  | caption argument | label argument | rowColor argument =>
    exact List.not_mem_append (by decide) (single_braced (single argument (List.mem_singleton_self argument)))
  | rowColors even odd =>
    exact List.not_mem_append (List.not_mem_append (by decide) (single_braced (single even (by simp [Command.texts]))))
      (single_braced (single odd (by simp [Command.texts])))
  | row cells => exact List.not_mem_append (not_mem_joinWith (by decide) single) (by decide)
  | graphics width path =>
    have first := single width (by simp [Command.texts])
    exact List.not_mem_append (List.not_mem_append (List.not_mem_append (by decide) first) (by decide))
      (single_braced (single path (by simp [Command.texts])))

theorem single_lowered (table : Table) {token : CellToken} (single : '\n' ∉ token.source) :
    '\n' ∉ token.lowered table id := by
  cases token with
  | text t => exact single
  | reference tag =>
    unfold CellToken.lowered
    dsimp only
    split
    · exact List.not_mem_append (List.not_mem_append (by decide) (single_counterPlus _)) (by decide)
    · exact single

theorem single_cellText (table : Table) {cell : Text} (single : '\n' ∉ cell) : '\n' ∉ cellText table cell := by
  have marked : '\n' ∉ markedCell table cell := by
    rw [markedCell_eq]
    intro member
    obtain ⟨token, among, inside⟩ := List.mem_flatMap.mp member
    refine single_lowered table (fun held => single ?_) inside
    rw [← source_cellTokens cell]
    exact List.mem_flatMap.mpr ⟨token, among, held⟩
  intro member
  rcases mem_replaceAll member with star | inside
  · exact absurd star (by decide)
  · exact marked (stripWhile_subset _ _ inside)

/-! ## Entries of a document -/

def Style.texts (style : Style) : List Text :=
  [style.table.evenRowColor, style.table.oddRowColor, style.table.headerColor, style.figure.width]

theorem single_island {commands : List Command} (single : ∀ command ∈ commands, ∀ t ∈ command.texts, '\n' ∉ t) :
    ∀ line ∈ commandIsland commands, '\n' ∉ line := by
  intro line member
  simp only [commandIsland, island, List.mem_append, List.mem_map] at member
  rcases member with (first | ⟨_, ⟨command, among, rfl⟩, rfl⟩) | last
  · revert line
    decide
  · exact List.not_mem_append (by decide) (single_source (single command among))
  · rw [List.mem_singleton.mp last]
    exact List.not_mem_nil

theorem joinWith_feed_concat (ls : List Text) : joinWith ['\n'] (ls ++ [[]]) = terminated ls := by
  induction ls with
  | nil => rfl
  | cons line ls ih =>
    have some : ls ++ [[]] ≠ [] := List.append_ne_nil_of_right_ne_nil ls (List.cons_ne_nil [] [])
    obtain ⟨next, rest, same⟩ := List.exists_cons_of_ne_nil some
    rw [List.cons_append, same, joinWith, ← same, ih, terminated, terminated, List.flatMap_cons]

theorem single_footnoteCommands {table : Table} (single : ∀ t ∈ (Element.table table).texts, '\n' ∉ t)
    (counter : FootnoteCounter) : ∀ command ∈ footnoteCommands table counter, ∀ t ∈ command.texts, '\n' ∉ t := by
  intro command member t inside
  rw [footnoteCommands_eq, List.mem_append, List.mem_map] at member
  rcases member with ⟨⟨footnote, position⟩, among, rfl⟩ | last
  · rw [List.mem_singleton.mp inside]
    refine single _ ?_
    have held : footnote ∈ table.footnotes := List.fst_mem_of_mem_zipIdx among
    simp only [Element.texts, List.mem_append]
    exact .inl (.inr (List.mem_map_of_mem held))
  · split at last
    · cases last
    · rw [List.mem_singleton.mp last] at inside
      cases inside

section
variable {style : Style} (styled : ∀ t ∈ style.texts, '\n' ∉ t)
include styled

theorem single_tabularCommands {table : Table} (single : ∀ t ∈ (Element.table table).texts, '\n' ∉ t) :
    ∀ command ∈ tabularCommands table style.table, ∀ t ∈ command.texts, '\n' ∉ t := by
  intro command member t inside
  unfold tabularCommands headerCommands rowCommands at member
  split at member
  · cases member
  · simp only [List.mem_append, List.mem_map, List.mem_cons, List.not_mem_nil, or_false, or_assoc] at member
    rcases member with rfl | rfl | header | ⟨row, among, rfl⟩ | rfl | rfl
    · cases inside
    · cases inside
    · cases titles : table.headerTitles with
      | none => simp [titles] at header
      | some names =>
        simp only [titles, List.mem_cons, List.not_mem_nil, or_false] at header
        rcases header with rfl | rfl | rfl
        · rw [List.mem_singleton.mp inside]
          exact styled _ (by simp [Style.texts])
        · exact single t (by simp [Element.texts, titles, show t ∈ names from inside])
        · cases inside
    · obtain ⟨cell, held, rfl⟩ := List.mem_map.mp inside
      refine single_cellText table (single cell ?_)
      simp only [Element.texts, List.mem_append, List.mem_flatten]
      exact .inl (.inl (.inr ⟨row, among, held⟩))
    · cases inside
    · cases inside

theorem single_tableCommands {table : Table} (single : ∀ t ∈ (Element.table table).texts, '\n' ∉ t)
    (counter : FootnoteCounter) :
    ∀ command ∈ tableCommands table style.table counter, ∀ t ∈ command.texts, '\n' ∉ t := by
  intro command member t inside
  unfold tableCommands at member
  simp only [List.mem_append, List.mem_map, List.mem_cons, List.not_mem_nil, or_false, or_assoc,
    Option.mem_toList] at member
  rcases member with rfl | rfl | rfl | rfl | ⟨title, held, rfl⟩ | ⟨anchor, held, rfl⟩ | grid | rfl | notes
  · cases inside
  · cases inside
  · cases inside
  · refine styled t ?_
    simp only [Command.texts, List.mem_cons, List.not_mem_nil, or_false] at inside
    rcases inside with rfl | rfl <;> simp [Style.texts]
  · rw [List.mem_singleton.mp inside]
    exact single title (by simp [Element.texts, Option.mem_def.mp held])
  · rw [List.mem_singleton.mp inside]
    exact single anchor (by simp [Element.texts, Option.mem_def.mp held])
  · exact single_tabularCommands styled single command grid t inside
  · cases inside
  · exact single_footnoteCommands single counter command notes t inside

theorem single_figureCommands {figure : Figure} (single : ∀ t ∈ (Element.figure figure).texts, '\n' ∉ t) :
    ∀ command ∈ figureCommands figure style.figure, ∀ t ∈ command.texts, '\n' ∉ t := by
  intro command member t inside
  unfold figureCommands at member
  simp only [List.mem_append, List.mem_map, List.mem_cons, List.not_mem_nil, or_false, or_assoc,
    Option.mem_toList] at member
  rcases member with rfl | rfl | ⟨path, held, rfl⟩ | rfl | ⟨anchor, held, rfl⟩ | rfl
  · cases inside
  · cases inside
  · simp only [Command.texts, List.mem_cons, List.not_mem_nil, or_false] at inside
    rcases inside with rfl | rfl
    · exact styled _ (by simp [Style.texts])
    · exact single _ (by simp [Element.texts, Option.mem_def.mp held])
  · rw [List.mem_singleton.mp inside]
    exact single _ (by simp [Element.texts])
  · rw [List.mem_singleton.mp inside]
    exact single anchor (by simp [Element.texts, Option.mem_def.mp held])
  · cases inside

theorem single_renderElement {element : Element} (single : ∀ t ∈ element.texts, '\n' ∉ t) (counter : FootnoteCounter) :
    ∀ line ∈ renderElement style counter element, '\n' ∉ line := by
  cases element with
  | header overline title underline => exact single
  | paragraph lines => exact single
  | label anchor =>
    refine single_island fun command member => ?_
    rw [List.mem_singleton.mp member]
    exact single
  | table table => exact single_island (single_tableCommands styled single counter)
  | figure figure => exact single_island (single_figureCommands styled single)

theorem single_renderLines {elements : List Element} (single : ∀ element ∈ elements, ∀ t ∈ element.texts, '\n' ∉ t)
    (counter : FootnoteCounter) : ∀ line ∈ renderLines style counter elements, '\n' ∉ line := by
  induction elements generalizing counter with
  | nil => simp [renderLines]
  | cons element elements ih =>
    obtain ⟨first, below⟩ := List.forall_mem_cons.mp single
    intro line member
    rw [renderLines, List.mem_append, List.mem_cons] at member
    rcases member with own | rfl | later
    · exact single_renderElement styled first counter line own
    · exact List.not_mem_nil
    · exact ih below _ line later

theorem length_lines_render {elements : List Element} (single : ∀ element ∈ elements, ∀ t ∈ element.texts, '\n' ∉ t)
    (counter : FootnoteCounter) : (Text.lines (render style counter elements)).length =
      (renderLines style counter elements).length - 1 := by
  have entries := single_renderLines styled single counter
  unfold render
  cases elements using List.reverseRecOn with
  | nil => rfl
  | append_singleton elements element =>
    have last : renderLines style counter (elements ++ [element]) = (renderLines style counter elements ++
        renderElement style (finalCounter counter elements) element) ++ [[]] := by
      rw [renderLines_append, renderLines, renderLines, List.append_assoc]
    rw [last] at entries ⊢
    rw [joinWith_feed_concat,
      lines_terminated_of_single fun line member => entries line (List.mem_append_left _ member)]
    simp

end

end DocPress.Latex
