import DocPress.Proofs.Document.Footnotes
import DocPress.Proofs.Latex.Counting
import DocPress.Proofs.Text.Replaced

namespace DocPress.Latex
open Text Document

def Command.footnote? : Command → Option (Nat × Text)
  | .footnoteText offset text => some (offset, text)
  | _ => none

def footnoteTexts (lines : List Text) : List (Nat × Text) :=
  (countingCommands lines).filterMap Command.footnote?

/-! ## The references of a cell -/

inductive CellToken where
  | text (t : Text)
  | reference (tag : Text)
deriving DecidableEq, Repr

namespace CellToken

def source : CellToken → Text
  | text t => t
  | reference tag => '[' :: tag ++ "]_".toList

def reference? : CellToken → Option Text
  | text _ => none
  | reference tag => some tag

/-- A token in the cell of a table, where `finish` is done to all that becomes no mark. -/
def lowered (table : Table) (finish : Text → Text) : CellToken → Text
  | text t => finish t
  | reference tag =>
    match table.footnotePosition? tag with
    | some position => CellPart.source (.mark position)
    | none => finish (source (.reference tag))

end CellToken

/-- The references `[#tag]_` of a cell, with the texts around them. -/
def cellTokens (cell : Text) : List CellToken :=
  match _opened : cut? "[#".toList cell with
  | none => [.text cell]
  | some (before, inner) =>
    match _closed : cut? "]_".toList inner with
    | none => [.text cell]
    | some (name, after) => .text before :: .reference ('#' :: name) :: cellTokens after
termination_by cell.length
decreasing_by
  have outer := congrArg List.length (cut?_eq_some _opened)
  have inside := congrArg List.length (cut?_eq_some _closed)
  simp only [List.length_append, String.length_toList] at outer inside
  have : "[#".length = 2 := rfl
  omega

theorem source_cellTokens (cell : Text) : (cellTokens cell).flatMap CellToken.source = cell := by
  fun_induction cellTokens cell with
  | case1 => simp [CellToken.source]
  | case2 => simp [CellToken.source]
  | case3 cell before inner opened name after closed ih =>
    rw [List.flatMap_cons, List.flatMap_cons, ih]
    conv_rhs => rw [cut?_eq_some opened, cut?_eq_some closed]
    simp [CellToken.source]

theorem cellTokens_of_reference {cell before inner name after : Text}
    (opened : cut? "[#".toList cell = some (before, inner)) (closed : cut? "]_".toList inner = some (name, after)) :
    cellTokens cell = .text before :: .reference ('#' :: name) :: cellTokens after := by
  rw [cellTokens]
  split
  · next none => cases none.symm.trans opened
  · next opened' =>
    cases opened.symm.trans opened'
    split
    · next none => cases none.symm.trans closed
    · next closed' =>
      cases closed.symm.trans closed'
      rfl

theorem markedCell_eq (table : Table) (cell : Text) :
    markedCell table cell = (cellTokens cell).flatMap (CellToken.lowered table id) := by
  unfold markedCell
  fun_induction cellParts table cell with
  | case1 cell none =>
    have whole : cellTokens cell = [.text cell] := by
      rw [cellTokens]
      split
      · rfl
      · next found => cases none.symm.trans found
    rw [whole]
    rfl
  | case2 cell before inner opened none =>
    have whole : cellTokens cell = [.text cell] := by
      rw [cellTokens]
      split
      · rfl
      · next found =>
        cases opened.symm.trans found
        split
        · rfl
        · next found' => cases none.symm.trans found'
    rw [whole]
    rfl
  | case3 cell before inner opened name after closed tag position defined ih =>
    rw [cellTokens_of_reference opened closed, List.flatMap_cons, List.flatMap_cons, List.flatMap_cons,
      List.flatMap_cons, ih, CellToken.lowered, CellToken.lowered, defined]
    rfl
  | case4 cell before inner opened name after closed tag undefined ih =>
    rw [cellTokens_of_reference opened closed, List.flatMap_cons, List.flatMap_cons, List.flatMap_cons, ih,
      CellToken.lowered, CellToken.lowered, undefined]
    change before ++ '[' :: tag ++ "]_".toList ++ _ = before ++ ('[' :: tag ++ "]_".toList ++ _)
    simp only [List.append_assoc]

/-! ## A cell is finished between its marks -/

inductive Alternates : List CellToken → Prop
  | last {t} : Alternates [.text t]
  | more {t tag rest} : Alternates rest → Alternates (.text t :: .reference tag :: rest)

theorem alternates_cellTokens (cell : Text) : Alternates (cellTokens cell) := by
  fun_induction cellTokens cell with
  | case1 => exact .last
  | case2 => exact .last
  | case3 _ _ _ _ _ _ _ ih => exact .more ih

def starred (t : Text) : Text :=
  replaceAll "\\*".toList "$*$".toList t

theorem starred_append {t rest : Text} (apart : t.getLast? = some '\\' → rest.head? ≠ some '*') :
    starred (t ++ rest) = starred t ++ starred rest := by
  refine replaceFrom_append (Nat.zero_le _) fun s suffix filled starts => ?_
  -- An occurrence that goes over the cut has its backslash before it and its star behind it.
  match s with
  | [c] =>
    obtain ⟨after, same⟩ := starts
    obtain ⟨rfl, star⟩ := List.cons.inj same
    have last : t.getLast? = some '\\' := by
      obtain ⟨front, rfl⟩ := suffix
      exact List.getLast?_concat
    exact absurd (congrArg List.head? star).symm (apart last)
  | c :: d :: s =>
    obtain ⟨after, same⟩ := starts
    obtain ⟨rfl, star⟩ := List.cons.inj same
    obtain ⟨rfl, -⟩ := List.cons.inj star
    exact List.prefix_append ['\\', '*'] s

theorem source_mark (position : Nat) : CellPart.source (.mark position) = "\\footnotemark[".toList ++
    ("\\numexpr\\value\x7boriginalfootnotevalue\x7d+".toList ++ ofNat position) ++ [']'] :=
  rfl

theorem not_mem_mark {c : Char} (plain : c.isDigit = false)
    (outside : c ∉ "\\footnotemark[\\numexpr\\value\x7boriginalfootnotevalue\x7d+]".toList) (position : Nat) :
    c ∉ CellPart.source (.mark position) := by
  have digits : c ∉ ofNat position := not_mem_ofNat plain position
  have frame : "\\footnotemark[\\numexpr\\value\x7boriginalfootnotevalue\x7d+]".toList =
      "\\footnotemark[".toList ++ "\\numexpr\\value\x7boriginalfootnotevalue\x7d+".toList ++ [']'] := by decide
  simp only [frame, source_mark, List.mem_append, not_or] at outside ⊢
  exact ⟨⟨outside.1.1, outside.1.2, digits⟩, outside.2⟩

theorem starred_mark (position : Nat) :
    starred (CellPart.source (.mark position)) = CellPart.source (.mark position) :=
  replaceAll_of_not_mem (c := '*') (by decide) (not_mem_mark (by decide) (by decide) position)

section
variable (table : Table)

theorem exists_ends (tag : Text) : ∃ c middle d, CellToken.lowered table id (.reference tag) = c :: middle ++ [d] ∧
    (c = '\\' ∨ c = '[') ∧ (d = ']' ∨ d = '_') := by
  unfold CellToken.lowered
  dsimp only
  split
  · exact ⟨_, _, ']', rfl, .inl rfl, .inl rfl⟩
  · refine ⟨'[', tag ++ [']'], '_', ?_, .inr rfl, .inr rfl⟩
    change '[' :: tag ++ "]_".toList = '[' :: (tag ++ [']']) ++ ['_']
    simp

theorem starred_lowered {tokens : List CellToken} (alternates : Alternates tokens) :
    starred (tokens.flatMap (CellToken.lowered table id)) = tokens.flatMap (CellToken.lowered table starred) := by
  induction alternates with
  | @last t => simp [CellToken.lowered]
  | @more t tag rest _ ih =>
    obtain ⟨c, middle, d, whole, first, last⟩ := exists_ends table tag
    have own : starred (CellToken.lowered table id (.reference tag)) =
        CellToken.lowered table starred (.reference tag) := by
      unfold CellToken.lowered
      dsimp only
      split
      · exact starred_mark _
      · rfl
    have before : t.getLast? = some '\\' → (CellToken.lowered table id (.reference tag) ++
        rest.flatMap (CellToken.lowered table id)).head? ≠ some '*' := by
      intro _
      rw [whole]
      rcases first with rfl | rfl <;> simp
    have after : (CellToken.lowered table id (.reference tag)).getLast? = some '\\' →
        (rest.flatMap (CellToken.lowered table id)).head? ≠ some '*' := by
      rw [whole, List.getLast?_concat]
      rcases last with rfl | rfl <;> simp
    rw [List.flatMap_cons, List.flatMap_cons, List.flatMap_cons, List.flatMap_cons, ← ih, ← own, ← starred_append after]
    exact starred_append before

theorem exists_dropWhile {tokens : List CellToken} (alternates : Alternates tokens) :
    ∃ shown, Alternates shown ∧ shown.filterMap CellToken.reference? = tokens.filterMap CellToken.reference? ∧
      shown.flatMap (CellToken.lowered table id) =
        (tokens.flatMap (CellToken.lowered table id)).dropWhile (· == '\'') := by
  cases alternates with
  | @last t => exact ⟨[.text (t.dropWhile (· == '\''))], .last, rfl, by simp [CellToken.lowered]⟩
  | @more t tag rest alternates =>
    obtain ⟨c, middle, d, whole, first, -⟩ := exists_ends table tag
    refine ⟨.text (t.dropWhile (· == '\'')) :: .reference tag :: rest, .more alternates, rfl, ?_⟩
    -- What is written for a reference starts with no quote, so no more than the first text is cut.
    have stops : (CellToken.lowered table id (.reference tag) ++ rest.flatMap (CellToken.lowered table id)).dropWhile
        (· == '\'') = CellToken.lowered table id (.reference tag) ++ rest.flatMap (CellToken.lowered table id) := by
      rw [whole]
      rcases first with rfl | rfl <;> rfl
    simp only [List.flatMap_cons]
    change t.dropWhile (· == '\'') ++ _ = List.dropWhile (· == '\'') (t ++ _)
    rw [List.dropWhile_append, stops]
    split
    · next none => rw [List.isEmpty_iff.mp none, List.nil_append]
    · rfl

theorem exists_dropEndWhile {tokens : List CellToken} (alternates : Alternates tokens) :
    ∃ shown, Alternates shown ∧ shown.filterMap CellToken.reference? = tokens.filterMap CellToken.reference? ∧
      shown.flatMap (CellToken.lowered table id) =
        dropEndWhile (· == '\'') (tokens.flatMap (CellToken.lowered table id)) := by
  induction alternates with
  | @last t => exact ⟨[.text (dropEndWhile (· == '\'') t)], .last, rfl, by simp [CellToken.lowered]⟩
  | @more t tag rest _ ih =>
    obtain ⟨c, middle, d, whole, -, last⟩ := exists_ends table tag
    obtain ⟨shown, alternates, references, same⟩ := ih
    refine ⟨.text t :: .reference tag :: shown, .more alternates, ?_, ?_⟩
    · exact congrArg (tag :: ·) references
    · simp only [List.flatMap_cons]
      change t ++ (_ ++ _) = dropEndWhile _ (t ++ (_ ++ _))
      have other : (d == '\'') = false := by rcases last with rfl | rfl <;> rfl
      rw [whole, same, ← List.append_assoc, ← List.append_assoc, ← List.append_assoc, ← List.append_assoc]
      exact (dropEndWhile_append_concat (p := (· == '\'')) other _ _).symm

theorem exists_shown (cell : Text) :
    ∃ shown : List CellToken, shown.filterMap CellToken.reference? = (cellTokens cell).filterMap CellToken.reference? ∧
      cellText table cell = shown.flatMap (CellToken.lowered table starred) := by
  obtain ⟨front, alternates, same, cut⟩ := exists_dropWhile table (alternates_cellTokens cell)
  obtain ⟨shown, alternates, same', cut'⟩ := exists_dropEndWhile table alternates
  refine ⟨shown, same'.trans same, ?_⟩
  rw [← starred_lowered table alternates, cut', cut, ← markedCell_eq]
  rfl

/-! ## The texts and the rows of a table -/

theorem footnoteTexts_table (style : Style) (counter : FootnoteCounter) :
    footnoteTexts (renderElement style counter (.table table)) =
      table.footnotes.zipIdx.map fun (footnote, position) => (position + 1, footnote.text) := by
  rw [renderElement, footnoteTexts, countingCommands_table, footnoteCommands_eq,
    List.filterMap_cons_none (by rfl), List.filterMap_append, List.filterMap_map]
  have last : (if table.footnotes = [] then [] else [Command.restoreFootnoteCounter table.footnotes.length]).filterMap
      Command.footnote? = [] := by
    split <;> rfl
  rw [last, List.append_nil, ← List.filterMap_eq_map]
  rfl

theorem columnCount_le_iff {n : Nat} : table.columnCount ≤ n ↔ ∀ row ∈ table.rows, row.length ≤ n := by
  have bound : ∀ (lengths : List Nat) (start : Nat), lengths.foldl max start ≤ n ↔ start ≤ n ∧ ∀ k ∈ lengths, k ≤ n := by
    intro lengths
    induction lengths with
    | nil => simp
    | cons k lengths ih =>
      intro start
      rw [List.foldl_cons, ih, Nat.max_le, List.forall_mem_cons, and_assoc]
  rw [Table.columnCount, bound, List.forall_mem_map, and_iff_right (Nat.zero_le n)]

theorem columnCount_ne_zero {row : List Text} (member : row ∈ table.rows) (filled : row ≠ []) :
    table.columnCount ≠ 0 := by
  have bound := (columnCount_le_iff table).mp (Nat.le_refl _) row member
  have := List.length_pos_iff.mpr filled
  omega

theorem row_mem_renderElement (style : Style) (counter : FootnoteCounter) {row : List Text} (member : row ∈ table.rows)
    (filled : row ≠ []) : "    ".toList ++ (Command.row (row.map (cellText table))).source ∈
      renderElement style counter (.table table) := by
  have grid : Command.row (row.map (cellText table)) ∈ tabularCommands table style.table := by
    rw [tabularCommands, if_neg (columnCount_ne_zero table member filled), rowCommands]
    simp only [List.mem_append, List.mem_map]
    exact .inl (.inr ⟨row, member, rfl⟩)
  have command : Command.row (row.map (cellText table)) ∈ tableCommands table style.table counter := by
    unfold tableCommands
    simp only [List.mem_append]
    exact .inl (.inl (.inr grid))
  rw [renderElement, commandIsland, island]
  simp only [List.mem_append]
  exact .inl (.inr (List.mem_map_of_mem (List.mem_map_of_mem command)))

theorem lowered_reference {given : List Footnote} (latest : table.footnotes = Keyed.latest Footnote.tag given)
    (style : Style) (counter : FootnoteCounter) (tag : Text) (finish : Text → Text) :
    match Keyed.last? Footnote.tag given tag with
    | some footnote => ∃ k, 1 ≤ k ∧ k ≤ table.footnotes.length ∧
        (footnoteTexts (renderElement style counter (.table table)))[k - 1]? = some (k, footnote.text) ∧
        CellToken.lowered table finish (.reference tag) = CellPart.source (.mark k)
    | none => CellToken.lowered table finish (.reference tag) = finish (CellToken.source (.reference tag)) := by
  rw [← Keyed.find?_latest, ← latest]
  cases place : table.footnotePosition? tag with
  | none =>
    have missing : table.footnotes.find? (fun footnote => footnote.tag = tag) = none := by
      simpa using footnotePosition?_eq_none.mp place
    rw [missing, CellToken.lowered, place]
  | some k =>
    obtain ⟨positive, footnote, found, own⟩ := footnotePosition?_eq_some place
    have bound : k - 1 < table.footnotes.length := (List.getElem?_eq_some_iff.mp found).1
    rw [own]
    refine ⟨k, positive, by omega, ?_, by rw [CellToken.lowered, place]⟩
    rw [footnoteTexts_table, List.getElem?_map, List.getElem?_zipIdx, found]
    simp [Nat.sub_add_cancel positive]

end

/-- A reference in a cell becomes the mark of a number, and the footnote text of this number is the one that the last
definition of its tag gives. The definitions are those of the notes lines, and where a table is cut into options, rows and notes
is the matter of `Document.tableBlock_read_iff`. -/
theorem footnoteMarks_match (lines : List Text) (anchor : Option Text) (style : Style) (counter : FootnoteCounter) :
    let given := definedFootnotes (Table.sections lines).notes
    let table := Table.parse lines anchor
    let written := renderElement style counter (.table table)
    (table.footnotes.map Footnote.tag).Nodup ∧
    table.footnotes.map Footnote.tag = Keyed.keys Footnote.tag given ∧
    (∀ footnote ∈ table.footnotes, Keyed.last? Footnote.tag given footnote.tag = some footnote) ∧
    (footnoteTexts written).length = table.footnotes.length ∧
    (∀ row ∈ table.rows, ∀ cell ∈ row,
      "    ".toList ++ (Command.row (row.map (cellText table))).source ∈ written ∧
      ∃ shown : List CellToken,
        shown.filterMap CellToken.reference? = (cellTokens cell).filterMap CellToken.reference? ∧
        cellText table cell = shown.flatMap (CellToken.lowered table starred)) ∧
    (∀ cell, (cellTokens cell).flatMap CellToken.source = cell ∧
      markedCell table cell = (cellTokens cell).flatMap (CellToken.lowered table id)) ∧
    ∀ tag finish,
      match Keyed.last? Footnote.tag given tag with
      | some footnote => ∃ k, 1 ≤ k ∧ k ≤ table.footnotes.length ∧
          (footnoteTexts written)[k - 1]? = some (k, footnote.text) ∧
          CellToken.lowered table finish (.reference tag) = CellPart.source (.mark k)
      | none => CellToken.lowered table finish (.reference tag) = finish (CellToken.source (.reference tag)) := by
  intro given table written
  have latest : table.footnotes = Keyed.latest Footnote.tag given := footnotes_eq_latest lines anchor
  have nodup : (table.footnotes.map Footnote.tag).Nodup := latest ▸ Keyed.nodup_map_key_latest given
  refine ⟨nodup, ?_, ?_, ?_, ?_, fun cell => ⟨source_cellTokens cell, markedCell_eq table cell⟩,
    lowered_reference table latest style counter⟩
  · rw [latest, Keyed.map_key_latest]
  · intro footnote member
    exact Keyed.last?_of_mem_latest (latest ▸ member)
  · rw [footnoteTexts_table, List.length_map, List.length_zipIdx]
  · intro row member cell inside
    exact ⟨row_mem_renderElement table style counter member (List.ne_nil_of_mem inside), exists_shown table cell⟩

end DocPress.Latex
