import DocPress.Proofs.Latex.Single

namespace DocPress.Latex
open Text Document

/-! ## Declared columns -/

/-- How many columns a specification declares from within `depth` braces on. A column is a letter outside braces; those
behind a `p` hold its width. -/
def declaredFrom : Nat → Text → Nat
  | _, [] => 0
  | depth, c :: rest =>
    if c = '\x7b' then declaredFrom (depth + 1) rest
    else if c = '\x7d' then declaredFrom (depth - 1) rest
    else if depth = 0 ∧ (c = 'l' ∨ c = 'p') then declaredFrom depth rest + 1
    else declaredFrom depth rest

def declared (specification : Text) : Nat :=
  declaredFrom 0 specification

theorem declaredFrom_inside {t : Text} (opens : '\x7b' ∉ t) (closes : '\x7d' ∉ t) (depth : Nat) (rest : Text) :
    declaredFrom (depth + 1) (t ++ rest) = declaredFrom (depth + 1) rest := by
  induction t with
  | nil => rfl
  | cons c t ih =>
    rw [List.mem_cons, not_or] at opens closes
    rw [List.cons_append, declaredFrom, if_neg (Ne.symm opens.1), if_neg (Ne.symm closes.1), if_neg (by simp),
      ih opens.2 closes.2]

theorem declared_share (width units : Nat) (rest : Text) :
    declared ("p\x7b".toList ++ Decimal.quotientText width units ++ "\\linewidth\x7d".toList ++ rest) =
      declared rest + 1 := by
  have number : ∀ c : Char, c ∈ ['\x7b', '\x7d'] → c ∉ Decimal.quotientText width units := by
    intro c member
    simp only [List.mem_cons, List.not_mem_nil, or_false] at member
    rcases member with rfl | rfl
    · exact not_mem_quotientText (by decide) (by decide) width units
    · exact not_mem_quotientText (by decide) (by decide) width units
  have width_read := declaredFrom_inside (number _ List.mem_cons_self) (number _ (by simp)) 0
    ("\\linewidth\x7d".toList ++ rest)
  have unit_read := declaredFrom_inside (t := "\\linewidth".toList) (by decide) (by decide) 0 ('\x7d' :: rest)
  calc declared ("p\x7b".toList ++ Decimal.quotientText width units ++ "\\linewidth\x7d".toList ++ rest)
      = declaredFrom 1 (Decimal.quotientText width units ++ ("\\linewidth\x7d".toList ++ rest)) + 1 := by
        rw [List.append_assoc, List.append_assoc]
        rfl
    _ = declaredFrom 1 ("\\linewidth".toList ++ '\x7d' :: rest) + 1 := by rw [width_read]; rfl
    _ = declared rest + 1 := by rw [unit_read]; rfl

theorem declared_source (columns : Columns) : declared columns.source = columns.count := by
  cases columns with
  | equal count =>
    induction count with
    | zero => rfl
    | succ count ih => exact congrArg (· + 1) ih
  | shares widths units =>
    rw [Columns.source, Columns.count]
    induction widths with
    | nil => rfl
    | cons width widths ih =>
      cases widths with
      | nil =>
        have single := declared_share width units []
        rw [List.append_nil] at single
        exact single
      | cons next widths =>
        rw [List.map_cons, List.map_cons, joinWith, List.append_assoc, declared_share]
        exact congrArg (· + 1) ih

/-! ## Cells and columns -/

def Command.isGrid : Command → Bool
  | beginTabular _ | row _ => true
  | _ => false

section
variable {table : Table}

theorem columnWidths_ne_nil {widths : List Nat} (read : table.columnWidths = some (.ok widths)) : widths ≠ [] := by
  obtain ⟨raw, -, numbers⟩ := Option.map_eq_some_iff.mp read
  obtain ⟨first, more, pieces⟩ := List.exists_cons_of_ne_nil (splitAt_ne_nil ',' raw)
  rintro rfl
  split at numbers
  · next found =>
    cases numbers
    rw [pieces, List.mapM_cons] at found
    obtain ⟨_, -, found⟩ := Option.bind_eq_some_iff.mp found
    obtain ⟨_, -, found⟩ := Option.bind_eq_some_iff.mp found
    cases found
  · cases numbers

variable (style : TableStyle)

theorem count_columnsOf : (columnsOf table style).count =
    match table.columnWidths with
    | some (.ok widths) => widths.length
    | _ => table.columnCount := by
  rw [columnsOf]
  cases read : table.columnWidths with
  | none => rfl
  | some result =>
    cases result with
    | error raw => rfl
    | ok widths => simp [columnWidths_ne_nil read, Columns.count]

theorem filter_isGrid_tableCommands (counter : FootnoteCounter) (filled : table.columnCount ≠ 0) :
    (tableCommands table style counter).filter Command.isGrid = .beginTabular (columnsOf table style) ::
      (table.headerTitles.toList ++ table.rows.map (List.map (cellText table))).map .row := by
  have footnotes : (footnoteCommands table counter).filter Command.isGrid = [] := by
    rw [footnoteCommands_eq, List.filter_append, List.append_eq_nil_iff]
    constructor
    · rw [List.filter_eq_nil_iff]
      intro command member
      obtain ⟨note, -, rfl⟩ := List.mem_map.mp member
      exact Bool.false_ne_true
    · split <;> rfl
  have title : (table.title.toList.map Command.caption).filter Command.isGrid = [] := by
    simp [List.filter_eq_nil_iff, Command.isGrid]
  have anchor : (table.anchor.toList.map Command.label).filter Command.isGrid = [] := by
    simp [List.filter_eq_nil_iff, Command.isGrid]
  have titles : (headerCommands table style).filter Command.isGrid = table.headerTitles.toList.map .row := by
    unfold headerCommands
    split
    · next none => rw [none]; rfl
    · next titles found => rw [found]; rfl
  have rows : (rowCommands table).filter Command.isGrid = (table.rows.map (List.map (cellText table))).map .row := by
    have written : rowCommands table = (table.rows.map (List.map (cellText table))).map .row := by
      rw [rowCommands, List.map_map]
      rfl
    rw [written, List.filter_eq_self]
    intro command member
    obtain ⟨cells, -, rfl⟩ := List.mem_map.mp member
    rfl
  have columns : [Command.beginTabular (columnsOf table style), .topRule].filter Command.isGrid =
      [.beginTabular (columnsOf table style)] := rfl
  rw [tableCommands, tabularCommands, if_neg filled]
  simp only [List.filter_append, columns, title, anchor, titles, rows, footnotes, List.map_append]
  simp [Command.isGrid]

end

/-- Each title and each cell of a table has a column, exactly if its longest row is not longer than its widths, where it
has any, and its titles are not more than its columns. -/
theorem columns_suffice_iff (table : Table) (style : TableStyle) (counter : FootnoteCounter)
    (filled : table.columnCount ≠ 0) :
    let grid := table.headerTitles.toList ++ table.rows.map (List.map (cellText table))
    let columns := columnsOf table style
    (tableCommands table style counter).filter Command.isGrid = .beginTabular columns :: grid.map .row ∧
      ((∀ cells ∈ grid, cells.length ≤ declared columns.source) ↔
        match table.columnWidths with
        | some (.ok widths) =>
          table.columnCount ≤ widths.length ∧ ∀ titles ∈ table.headerTitles, titles.length ≤ widths.length
        | _ => ∀ titles ∈ table.headerTitles, titles.length ≤ table.columnCount) := by
  intro grid columns
  refine ⟨filter_isGrid_tableCommands style counter filled, ?_⟩
  have cells : (∀ cells ∈ grid, cells.length ≤ declared columns.source) ↔
      (∀ titles ∈ table.headerTitles, titles.length ≤ columns.count) ∧ table.columnCount ≤ columns.count := by
    rw [declared_source, columnCount_le_iff]
    simp only [grid, List.forall_mem_append, List.forall_mem_map, List.length_map, Option.mem_toList,
      Option.mem_def]
  rw [cells, count_columnsOf]
  split
  · exact and_comm
  · exact and_iff_left (Nat.le_refl _)

def titledTable : Table :=
  { widths := some "60, 60".toList, header := some "A,B".toList, rows := [["a".toList, "b".toList], ["c".toList]] }

theorem columns_suffice_iff_titled :
    (tableCommands titledTable {} ⟨0⟩).filter Command.isGrid =
        [.beginTabular (.shares [60, 60] 120), .row ["A".toList, "B".toList], .row ["a".toList, "b".toList],
          .row ["c".toList]] ∧
      ∀ cells ∈ titledTable.headerTitles.toList ++ titledTable.rows.map (List.map (cellText titledTable)),
        cells.length ≤ declared (columnsOf titledTable {}).source := by
  have widths : titledTable.columnWidths = some (.ok [60, 60]) := by decide +kernel
  have titles : titledTable.headerTitles = some ["A".toList, "B".toList] := by decide +kernel
  obtain ⟨commands, suffice⟩ := columns_suffice_iff titledTable {} ⟨0⟩ (by decide)
  refine ⟨commands.trans (by decide +kernel), suffice.mpr ?_⟩
  rw [widths, titles]
  exact ⟨by decide, by rintro _ ⟨⟩; decide⟩

theorem columns_not_suffice_narrow :
    let suffice : Table → Prop := fun table =>
      ∀ (style : TableStyle) (counter : FootnoteCounter), table.columnCount ≠ 0 →
        ∀ columns cells, .beginTabular columns ∈ tableCommands table style counter →
          .row cells ∈ tableCommands table style counter → cells.length ≤ declared columns.source
    (¬∀ table : Table, table.header = none → suffice table) ∧
      ¬∀ table : Table, table.widths = none → suffice table := by
  refine ⟨fun suffice => ?_, fun suffice => ?_⟩
  · have wide := suffice { widths := some "60".toList, rows := [["a".toList, "b".toList]] } rfl {} ⟨0⟩ (by decide)
      (.shares [60] 120) ["a".toList, "b".toList] (by decide +kernel) (by decide +kernel)
    revert wide
    decide +kernel
  · have titled := suffice { header := some "A,B".toList, rows := [["a".toList]] } rfl {} ⟨0⟩ (by decide)
      (.equal 1) ["A".toList, "B".toList] (by decide +kernel) (by decide +kernel)
    revert titled
    decide +kernel

end DocPress.Latex
