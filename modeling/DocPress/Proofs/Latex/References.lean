import DocPress.Proofs.Latex.Marks

namespace DocPress.Latex
open Text Document

namespace CellToken

/-- An unknown reference that ends in a known one. -/
def Hides (table : Table) : CellToken → Prop
  | text _ => False
  | reference tag => table.footnotePosition? tag = none ∧
      ∃ footnote ∈ table.footnotes, source (.reference footnote.tag) <:+ source (.reference tag)

def settled (table : Table) : CellToken → CellToken
  | text t => .text t
  | reference tag =>
    match table.footnotePosition? tag with
    | some _ => .reference tag
    | none => .text (source (.reference tag))

end CellToken

/-- The references among the tokens of a cell are those to footnotes of the table, wherever one stands in the cell. One
that stands within another is none of its own. -/
structure Resolves (table : Table) (cell : Text) (tokens : List CellToken) : Prop where
  whole : tokens.flatMap CellToken.source = cell
  known : ∀ tag, .reference tag ∈ tokens → ∃ footnote ∈ table.footnotes, footnote.tag = tag
  complete : ∀ footnote ∈ table.footnotes, ∀ before after,
    cell = before ++ CellToken.source (.reference footnote.tag) ++ after → ∃ front tag back,
      tokens = front ++ .reference tag :: back ∧ front.flatMap CellToken.source <+: before ∧
      back.flatMap CellToken.source <:+ after

/-! ## Where a reference can stand -/

section
variable {cell before inner name after front other back : Text}

theorem source_reference (name : Text) :
    CellToken.source (.reference ('#' :: name)) = '[' :: '#' :: (name ++ [']', '_']) :=
  rfl

theorem cut_at_reference (opened : cut? "[#".toList cell = some (before, inner))
    (closing : cut? "]_".toList inner = some (name, after)) :
    cell = before ++ CellToken.source (.reference ('#' :: name)) ++ after ∧ occurs ['[', '#'] before = false ∧
      occurs [']', '_'] name = false := by
  refine ⟨?_, occurs_before_cut? (List.cons_ne_nil _ _) opened, occurs_before_cut? (List.cons_ne_nil _ _) closing⟩
  rw [cut?_eq_some opened, cut?_eq_some closing]
  simp [source_reference]

theorem exists_cut_of_reference (split : cell = front ++ CellToken.source (.reference ('#' :: other)) ++ back) :
    ∃ before inner name after, cut? "[#".toList cell = some (before, inner) ∧
      cut? "]_".toList inner = some (name, after) := by
  cases opened : cut? "[#".toList cell with
  | none =>
    have free : ¬ ['[', '#'] <:+: cell := occurs_eq_false_iff.mp (occurs_of_cut?_eq_none opened)
    exact absurd ⟨front, other ++ [']', '_'] ++ back, by simp [split, source_reference]⟩ free
  | some cut =>
    obtain ⟨before, inner⟩ := cut
    cases closed : cut? "]_".toList inner with
    | some cut => exact ⟨before, inner, cut.1, cut.2, rfl, closed⟩
    | none =>
      have free : ¬ [']', '_'] <:+: inner := occurs_eq_false_iff.mp (occurs_of_cut?_eq_none closed)
      have clear : occurs ['[', '#'] before = false := occurs_before_cut? (List.cons_ne_nil _ _) opened
      have same : before ++ '[' :: '#' :: inner = front ++ '[' :: '#' :: (other ++ ']' :: '_' :: back) := by
        rw [cut?_eq_some opened] at split
        simpa [source_reference] using split
      rcases append_pair_cases (by decide) clear same with ⟨-, rfl⟩ | ⟨gap, -, rfl⟩
      · exact absurd ⟨other, back, by simp⟩ free
      · exact absurd ⟨gap ++ '[' :: '#' :: other, back, by simp⟩ free

theorem closing_unique (first : occurs [']', '_'] name = false) (closed : ']' ∉ other)
    (split : name ++ ']' :: '_' :: after = other ++ ']' :: '_' :: back) : other = name ∧ back = after := by
  rcases append_pair_cases (by decide) first split with same | ⟨gap, rfl, -⟩
  · exact same
  · exact absurd (by simp) closed

theorem reference_cases (clear : occurs ['[', '#'] before = false) (first : occurs [']', '_'] name = false)
    (closed : ']' ∉ other)
    (split : before ++ CellToken.source (.reference ('#' :: name)) ++ after =
      front ++ CellToken.source (.reference ('#' :: other)) ++ back) :
    (CellToken.source (.reference ('#' :: other)) <:+ CellToken.source (.reference ('#' :: name)) ∧
      before <+: front ∧ back = after) ∨
    ∃ gap, front = before ++ CellToken.source (.reference ('#' :: name)) ++ gap ∧
      after = gap ++ CellToken.source (.reference ('#' :: other)) ++ back := by
  have opening : before ++ '[' :: '#' :: (name ++ ']' :: '_' :: after) =
      front ++ '[' :: '#' :: (other ++ ']' :: '_' :: back) := by
    simpa [source_reference] using split
  rcases append_pair_cases (by decide) clear opening with ⟨rfl, same⟩ | ⟨gap, rfl, same⟩
  · obtain ⟨rfl, rfl⟩ := closing_unique first closed same.symm
    exact .inl ⟨List.suffix_refl _, List.prefix_refl _, rfl⟩
  · rcases append_pairs_cases (by decide) (by decide) (by decide) same with ⟨rest, rfl, behind⟩ | ⟨gap, rfl, rfl⟩
    · -- it opens within the other one, so the same `]_` closes both
      have free : occurs [']', '_'] rest = false := by
        rw [occurs_eq_false_iff] at first ⊢
        exact fun found => first (found.trans ⟨gap ++ ['[', '#'], [], by simp⟩)
      obtain ⟨rfl, rfl⟩ := closing_unique free closed behind.symm
      exact .inl ⟨⟨'[' :: '#' :: gap, by simp [source_reference]⟩, List.prefix_append _ _, rfl⟩
    · exact .inr ⟨gap, by simp [source_reference], by simp [source_reference]⟩

end

/-! ## The known references -/

section
variable {table : Table} {cell : Text} {footnote : Footnote}

theorem source_settled (token : CellToken) : (token.settled table).source = token.source := by
  cases token with
  | text => rfl
  | reference tag =>
    rw [CellToken.settled]
    split <;> rfl

theorem flatMap_source_settled (tokens : List CellToken) :
    (tokens.map (CellToken.settled table)).flatMap CellToken.source = tokens.flatMap CellToken.source := by
  rw [List.flatMap_map]
  exact congrArg (List.flatMap · tokens) (funext source_settled)

theorem lowered_settled (token : CellToken) :
    (token.settled table).lowered table id = token.lowered table id := by
  cases token with
  | text => rfl
  | reference tag =>
    rw [CellToken.settled, CellToken.lowered]
    cases place : table.footnotePosition? tag with
    | none => rfl
    | some position => simp [CellToken.lowered, place]

theorem settled_known {tag : Text} {position : Nat} (place : table.footnotePosition? tag = some position) :
    CellToken.settled table (.reference tag) = .reference tag := by
  rw [CellToken.settled, place]

theorem known_settled {token : CellToken} {tag : Text} (same : token.settled table = .reference tag) :
    ∃ footnote ∈ table.footnotes, footnote.tag = tag := by
  have found : table.footnotePosition? tag ≠ none := by
    cases token with
    | text => cases same
    | reference other =>
      rw [CellToken.settled] at same
      cases place : table.footnotePosition? other with
      | none =>
        rw [place] at same
        cases same
      | some position =>
        rw [place] at same
        cases same
        simp [place]
  simpa [footnotePosition?_eq_none] using found

theorem complete_settled {other before after : Text} (member : footnote ∈ table.footnotes)
    (shape : footnote.tag = '#' :: other) (closed : ']' ∉ other) (plain : ∀ token ∈ cellTokens cell, ¬ token.Hides table)
    (split : cell = before ++ CellToken.source (.reference footnote.tag) ++ after) :
    ∃ front tag back, (cellTokens cell).map (CellToken.settled table) = front ++ .reference tag :: back ∧
      front.flatMap CellToken.source <+: before ∧ back.flatMap CellToken.source <:+ after := by
  rw [shape] at split
  fun_induction cellTokens cell generalizing before with
  | case1 cell none =>
    obtain ⟨_, _, _, _, opened, -⟩ := exists_cut_of_reference split
    cases none.symm.trans opened
  | case2 cell _ inner opened none =>
    obtain ⟨_, _, _, _, opened', closing⟩ := exists_cut_of_reference split
    cases opened.symm.trans opened'
    cases none.symm.trans closing
  | case3 cell lead inner opened name rest closing ih =>
    obtain ⟨whole, clear, first⟩ := cut_at_reference opened closing
    rcases reference_cases clear first closed (whole.symm.trans split) with ⟨ends, inside, rfl⟩ | ⟨gap, rfl, later⟩
    · cases place : table.footnotePosition? ('#' :: name) with
      | none => exact absurd ⟨place, footnote, member, shape ▸ ends⟩ (plain (.reference ('#' :: name)) (by simp))
      | some position =>
        refine ⟨[.text lead], '#' :: name, (cellTokens after).map (CellToken.settled table), ?_, ?_, ?_⟩
        · rw [List.map_cons, List.map_cons, settled_known place]
          rfl
        · simpa [CellToken.source] using inside
        · rw [flatMap_source_settled, source_cellTokens]
    · have below : ∀ token ∈ cellTokens rest, ¬ token.Hides table := fun token inside => plain token (by simp [inside])
      obtain ⟨front, tag, back, tokens, shorter, tail⟩ := ih below later
      refine ⟨(.text lead) :: CellToken.settled table (.reference ('#' :: name)) :: front, tag, back, ?_, ?_, tail⟩
      · rw [List.map_cons, List.map_cons, tokens]
        rfl
      · rw [List.flatMap_cons, List.flatMap_cons, source_settled, ← List.append_assoc]
        exact (List.prefix_append_right_inj _).mpr shorter

theorem resolves_settled (shaped : ∀ footnote ∈ table.footnotes, ∃ name, footnote.tag = '#' :: name ∧ ']' ∉ name)
    (plain : ∀ token ∈ cellTokens cell, ¬ token.Hides table) :
    Resolves table cell ((cellTokens cell).map (CellToken.settled table)) where
  whole := by rw [flatMap_source_settled, source_cellTokens]
  known := by
    intro tag member
    obtain ⟨token, -, same⟩ := List.mem_map.mp member
    exact known_settled same
  complete := by
    intro footnote member before after split
    obtain ⟨other, shape, closed⟩ := shaped footnote member
    exact complete_settled member shape closed plain split

/-! ## No known reference is left -/

theorem getLast?_mark (before : Text) (position : Nat) :
    (before ++ CellPart.source (.mark position)).getLast? = some ']' := by
  rw [source_mark, ← List.append_assoc, List.getLast?_concat]

theorem reference_left {token : CellToken} (among : token ∈ cellTokens cell) (hides : token.Hides table) :
    ∃ footnote ∈ table.footnotes, CellToken.source (.reference footnote.tag) <:+: markedCell table cell := by
  cases token with
  | text => exact hides.elim
  | reference tag =>
    obtain ⟨unknown, footnote, member, ends⟩ := hides
    have own : CellToken.lowered table id (.reference tag) = CellToken.source (.reference tag) := by
      rw [CellToken.lowered, unknown]
      rfl
    refine ⟨footnote, member, ends.isInfix.trans ?_⟩
    rw [markedCell_eq, ← own]
    exact List.infix_of_mem_flatten (List.mem_map_of_mem among)

theorem no_reference_left {other front back : Text} (member : footnote ∈ table.footnotes)
    (shape : footnote.tag = '#' :: other) (closed : ']' ∉ other)
    (plain : ∀ token ∈ cellTokens cell, ¬ token.Hides table) :
    (cellTokens cell).flatMap (CellToken.lowered table id) ≠
      front ++ CellToken.source (.reference ('#' :: other)) ++ back := by
  intro split
  fun_induction cellTokens cell generalizing front with
  | case1 cell none =>
    obtain ⟨_, _, _, _, opened, -⟩ := exists_cut_of_reference (by simpa [CellToken.lowered] using split)
    cases none.symm.trans opened
  | case2 cell _ inner opened none =>
    obtain ⟨_, _, _, _, opened', closing⟩ := exists_cut_of_reference (by simpa [CellToken.lowered] using split)
    cases opened.symm.trans opened'
    cases none.symm.trans closing
  | case3 cell lead inner opened name rest closing ih =>
    obtain ⟨-, clear, first⟩ := cut_at_reference opened closing
    have later : ∀ token ∈ cellTokens rest, ¬ token.Hides table := fun token inside => plain token (by simp [inside])
    rw [List.flatMap_cons, List.flatMap_cons, ← List.append_assoc] at split
    cases place : table.footnotePosition? ('#' :: name) with
    | none =>
      rw [CellToken.lowered, CellToken.lowered, place] at split
      rcases reference_cases clear first closed split with ⟨ends, -, -⟩ | ⟨gap, -, below⟩
      · exact plain (.reference ('#' :: name)) (by simp) ⟨place, footnote, member, shape ▸ ends⟩
      · exact ih later below
    | some position =>
      -- a mark has no `#` and does not end in `[`, so no reference opens in or across it
      rw [CellToken.lowered, CellToken.lowered, place, List.append_assoc front] at split
      have free : occurs ['[', '#'] (lead ++ CellPart.source (.mark position)) = false :=
        not_occurs_append clear (not_mem_mark (by decide) (by decide) position)
      have ends : (lead ++ CellPart.source (.mark position)).getLast? ≠ some '[' := by
        rw [getLast?_mark]
        decide
      obtain ⟨gap, -, below⟩ := append_pair_behind free ends split
      exact ih later (below.trans (List.append_assoc gap (CellToken.source (.reference ('#' :: other))) back).symm)

end

/-- The references of a cell to footnotes of its table become marks, and all other text is kept, exactly if no unknown
reference ends in a known one. -/
theorem references_resolved_iff (lines : List Text) (anchor : Option Text) (cell : Text) :
    let table := Table.parse lines anchor
    ((∀ footnote ∈ table.footnotes,
        occurs (CellToken.source (.reference footnote.tag)) (markedCell table cell) = false) ∧
      ∃ tokens, Resolves table cell tokens ∧ markedCell table cell = tokens.flatMap (CellToken.lowered table id)) ↔
    ∀ token ∈ cellTokens cell, ¬ token.Hides table := by
  intro table
  have shaped : ∀ footnote ∈ table.footnotes, ∃ name, footnote.tag = '#' :: name ∧ ']' ∉ name :=
    fun footnote member => tag_of_mem_footnotes member
  constructor
  · rintro ⟨cleared, -⟩ token among hides
    obtain ⟨footnote, member, left⟩ := reference_left among hides
    exact occurs_eq_false_iff.mp (cleared footnote member) left
  · intro plain
    refine ⟨fun footnote member => ?_, _, resolves_settled shaped plain, ?_⟩
    · obtain ⟨other, shape, closed⟩ := shaped footnote member
      rw [occurs_eq_false_iff, markedCell_eq, shape]
      rintro ⟨front, back, split⟩
      exact no_reference_left member shape closed plain split.symm
    · rw [markedCell_eq, List.flatMap_map]
      exact congrArg (List.flatMap · _) (funext fun token => (lowered_settled token).symm)

theorem reference_left_hidden :
    ¬ ∀ (lines : List Text) (anchor : Option Text) (cell : Text),
      let table := Table.parse lines anchor
      (∀ footnote ∈ table.footnotes,
        occurs (CellToken.source (.reference footnote.tag)) (markedCell table cell) = false) ∧
      ∃ tokens, Resolves table cell tokens ∧ markedCell table cell = tokens.flatMap (CellToken.lowered table id) := by
  intro every
  have cleared := (every [".. csv-table::".toList, [], "   a".toList, [], ".. [#a] Note".toList] none
    "[#x [#a]_".toList).1 ⟨"#a".toList, "Note".toList⟩ (by decide +kernel)
  exact absurd cleared (by decide +kernel)

end DocPress.Latex
