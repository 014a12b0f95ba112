import DocPress.Proofs.Document.Manuscript

namespace DocPress.Document
open Text

/-! ## Reading one field -/

theorem fieldsFrom_append {t : Text} {inside : Bool} (plain : '"' ∉ t) (whole : inside = true ∨ ',' ∉ t)
    (current rest : Text) : fieldsFrom current inside (t ++ rest) = fieldsFrom (current ++ t) inside rest := by
  induction t generalizing current with
  | nil => rw [List.nil_append, List.append_nil]
  | cons c t ih =>
    rw [List.mem_cons, not_or] at plain
    have parted : ¬(decide (c = ',') && !inside) = true := by
      rcases whole with rfl | whole
      · simp
      · rw [List.mem_cons, not_or] at whole
        simp [Ne.symm whole.1]
    have later := ih plain.2 (whole.imp_right fun outside member => outside (List.mem_cons_of_mem c member)) (current ++ [c])
    rw [List.cons_append, fieldsFrom, if_neg (Ne.symm plain.1), if_neg parted, later, List.append_assoc]
    rfl

structure Spells (text field : Text) : Prop where
  whole : ∀ current rest, fieldsFrom current false (text ++ rest) = fieldsFrom (current ++ text) false rest
  read : fieldOf text = field

section
variable {field : Text} (plain : '"' ∉ field)
include plain

theorem dropEndWhile_quote : dropEndWhile (· == '"') field = field := by
  rw [dropEndWhile_eq_rdropWhile, List.rdropWhile_eq_self_iff]
  intro some same
  exact plain (by simpa [eq_of_beq same] using List.getLast_mem some)

theorem dropWhile_quote (rest : Text) :
    (field ++ rest).dropWhile (· == '"') = if field = [] then rest.dropWhile (· == '"') else field ++ rest := by
  cases field with
  | nil => rfl
  | cons c field =>
    have other : ¬(c == '"') = true := fun same => plain (by simp [eq_of_beq same])
    rw [List.cons_append, List.dropWhile_cons_of_neg (p := (· == '"')) other, if_neg (List.cons_ne_nil c field)]

theorem fieldOf_quoted : fieldOf (quoted field) = field := by
  have kept : trim (quoted field) = quoted field := trim_eq_self (by decide) (by decide) field
  rw [fieldOf, kept, stripWhile, quoted, List.dropWhile_cons_of_pos rfl, dropWhile_quote plain]
  split
  · next none =>
    subst none
    rfl
  · rw [dropEndWhile_eq_rdropWhile, List.rdropWhile_concat_pos _ _ _ rfl, ← dropEndWhile_eq_rdropWhile,
      dropEndWhile_quote plain]

theorem spells_quoted : Spells (quoted field) field where
  whole current rest := by
    have opened : fieldsFrom current false ('"' :: (field ++ ('"' :: rest))) =
        fieldsFrom (current ++ ['"']) true (field ++ '"' :: rest) := rfl
    rw [quoted, List.cons_append, List.append_assoc, List.singleton_append, opened, fieldsFrom_append plain (.inl rfl)]
    change fieldsFrom (current ++ ['"'] ++ field ++ ['"']) false rest = _
    rw [List.append_assoc, List.append_assoc]
    rfl
  read := fieldOf_quoted plain

theorem spells_bare (parted : ',' ∉ field) (trimmed : trim field = field) : Spells field field where
  whole := fieldsFrom_append plain (.inr parted)
  read := by
    have start := dropWhile_quote plain []
    rw [List.append_nil] at start
    rw [fieldOf, trimmed, stripWhile, start]
    split
    · next none => exact none.symm
    · exact dropEndWhile_quote plain

end

theorem Spells.padded {text field before after : Text} (spells : Spells text field) (blank_before : isBlank before = true)
    (blank_after : isBlank after = true) : Spells (before ++ text ++ after) field where
  whole current rest := by
    have skipped : ∀ {gap : Text}, isBlank gap = true → ∀ current rest,
        fieldsFrom current false (gap ++ rest) = fieldsFrom (current ++ gap) false rest := fun blank =>
      fieldsFrom_append (not_mem_of_isBlank (by decide) blank) (.inr (not_mem_of_isBlank (by decide) blank))
    rw [List.append_assoc, List.append_assoc, skipped blank_before, spells.whole, skipped blank_after]
    simp only [List.append_assoc]
  read := by
    rw [← spells.read, fieldOf, fieldOf, List.append_assoc, trim_append_of_blank blank_before, ← trim_trimEnd,
      trimEnd_append_of_blank blank_after, trim_trimEnd]

/-! ## Reading a row -/

theorem fieldsFrom_comma (current rest : Text) :
    fieldsFrom current false (',' :: rest) = fieldOf current :: fields rest :=
  rfl

theorem fieldsFrom_nil {current : Text} (shown : current ≠ []) : fieldsFrom current false [] = [fieldOf current] := by
  rw [fieldsFrom.eq_1, if_neg (by simpa using shown)]

theorem fields_of_spells {texts row : List Text} (spelled : List.Forall₂ Spells texts row) (some : texts ≠ []) {tail : Text}
    (ends : ∀ last ∈ texts.getLast?, fieldsFrom last false tail = [fieldOf last]) :
    fields (joinWith [','] texts ++ tail) = row := by
  induction spelled with
  | nil => exact absurd rfl some
  | @cons text field texts row first later ih =>
    have start (rest : Text) : fields (text ++ rest) = fieldsFrom text false rest := first.whole [] rest
    cases later with
    | nil => rw [joinWith, start, ends text rfl, first.read]
    | cons second later =>
      rw [joinWith, List.append_assoc, List.append_assoc, start, List.singleton_append, fieldsFrom_comma, first.read,
        ih (List.cons_ne_nil _ _) ends]

/-- A field as it is written, within quotes or bare. Commas and white space at its ends need quotes. -/
structure WrittenField where
  field : Text
  bare : Bool
  before : Text
  after : Text
  plain : '"' ∉ field
  clear : bare = true → ',' ∉ field ∧ trim field = field
  blank_before : isBlank before = true
  blank_after : isBlank after = true

namespace WrittenField
variable (written : WrittenField)

def text : Text :=
  written.before ++ (if written.bare then written.field else quoted written.field) ++ written.after

theorem text_ne_nil (shown : written.bare = true → written.field ≠ []) : written.text ≠ [] := by
  intro none
  simp only [text, List.append_eq_nil_iff] at none
  obtain ⟨⟨-, none⟩, -⟩ := none
  split at none
  · next bare => exact shown bare none
  · cases none

theorem spells : Spells written.text written.field := by
  refine Spells.padded ?_ written.blank_before written.blank_after
  split
  · next bare => exact spells_bare written.plain (written.clear bare).1 (written.clear bare).2
  · exact spells_quoted written.plain

end WrittenField

theorem forall₂_spells (row : List WrittenField) :
    List.Forall₂ Spells (row.map WrittenField.text) (row.map WrittenField.field) := by
  rw [List.forall₂_map_left_iff, List.forall₂_map_right_iff, List.forall₂_same]
  exact fun written _ => written.spells

/-- A written row is read back, unless nothing at all is written for its last field. Behind one more comma, what follows a
quote that nothing closes is dropped. -/
theorem fields_written {row : List WrittenField} (some : row ≠ []) :
    ((∀ last ∈ row.getLast?, last.bare = true → last.field ≠ []) →
      fields (joinWith [','] (row.map WrittenField.text)) = row.map WrittenField.field) ∧
    ∀ rest, '"' ∉ rest →
      fields (joinWith [','] (row.map WrittenField.text) ++ ',' :: '"' :: rest) = row.map WrittenField.field := by
  have filled : row.map WrittenField.text ≠ [] := by simpa using some
  constructor
  · intro shown
    have ends : ∀ last ∈ (row.map WrittenField.text).getLast?, fieldsFrom last false [] = [fieldOf last] := by
      intro last found
      rw [List.getLast?_map, Option.mem_def, Option.map_eq_some_iff] at found
      obtain ⟨written, found, rfl⟩ := found
      exact fieldsFrom_nil (written.text_ne_nil (shown written found))
    have read := fields_of_spells (forall₂_spells row) filled ends
    rwa [List.append_nil] at read
  · intro rest plain
    have dropped : fieldsFrom ['"'] true rest = [] := by
      have reached := fieldsFrom_append plain (.inl (rfl : true = true)) ['"'] []
      rw [List.append_nil] at reached
      rw [reached, fieldsFrom.eq_1, Bool.or_true, if_pos rfl]
    refine fields_of_spells (forall₂_spells row) filled fun last _ => ?_
    have opened : fields ('"' :: rest) = fieldsFrom ['"'] true rest := rfl
    rw [fieldsFrom_comma, opened, dropped]

def stockRow : List WrittenField :=
  [{ field := " Long, quoted".toList, bare := false, before := " ".toList, after := [], plain := by decide,
     clear := by decide, blank_before := by decide, blank_after := by decide },
   { field := [], bare := true, before := [], after := " ".toList, plain := by decide, clear := by decide,
     blank_before := by decide, blank_after := by decide },
   { field := "Reader B".toList, bare := true, before := "\t".toList, after := "\u00a0".toList, plain := by decide,
     clear := by decide, blank_before := by decide, blank_after := by decide }]

theorem fields_written_stock :
    fields " \" Long, quoted\", ,\tReader B\u00a0".toList = [" Long, quoted".toList, [], "Reader B".toList] ∧
      fields " \" Long, quoted\", ,\tReader B\u00a0,\"open, end".toList =
        [" Long, quoted".toList, [], "Reader B".toList] := by
  have some : stockRow ≠ [] := by decide
  exact ⟨(fields_written some).1 (by decide), (fields_written some).2 "open, end".toList (by decide)⟩

end DocPress.Document
