import DocPress.Proofs.Document.TableBlock
import DocPress.Proofs.Keyed.Latest
import DocPress.Proofs.Text.Search
import Mathlib.Data.List.Infix

namespace DocPress.Document
open Text Markup

/-- The footnote that the first of some lines defines. Its text goes on up to a blank line or another definition. -/
def definedAt? : List Text → Option Footnote
  | [] => none
  | line :: below =>
    (footnote? line).map fun (tag, text) =>
      ⟨tag, joinWith [' '] ((text :: (below.takeWhile Table.continuesNote).map trim).filter isFilled)⟩

def definedFootnotes (lines : List Text) : List Footnote :=
  lines.tails.filterMap definedAt?

theorem footnoteText_eq {text : Text} {continuation : List Text} (trimmed : trim text = text)
    (filled : ∀ line ∈ continuation, isFilled line = true) :
    Table.footnoteText text continuation = joinWith [' '] ((text :: continuation.map trim).filter isFilled) := by
  have parts : (continuation.map trim).filter isFilled = continuation.map trim := by
    rw [List.filter_eq_self, List.forall_mem_map]
    intro line member
    rw [isFilled, isBlank_trim]
    exact filled line member
  unfold Table.footnoteText
  cases text with
  | nil => simp [parts, isFilled, isBlank]
  | cons c rest =>
    have own : isFilled (c :: rest) = true := by
      rw [isFilled, Bool.not_eq_true', Bool.eq_false_iff, ne_eq, ← trim_eq_nil_iff, trimmed]
      exact List.cons_ne_nil c rest
    rw [List.filter_cons_of_pos own, parts]
    rfl

theorem trim_of_footnote? {line tag text : Text} (found : footnote? line = some (tag, text)) : trim text = text := by
  unfold footnote? at found
  split at found
  · cases found
  · split at found
    · split at found
      · cases found
        rfl
      · obtain ⟨rest, _, same⟩ := Option.map_eq_some_iff.mp found
        obtain ⟨rfl, rfl⟩ := Prod.mk.inj same
        exact trim_trim rest
    · cases found

theorem defined?_eq {line : Text} (below : List Text) :
    defined? (line, below.takeWhile Table.continuesNote) = definedAt? (line :: below) := by
  have filled : ∀ other ∈ below.takeWhile Table.continuesNote, isFilled other = true := by
    intro other member
    have continues := List.mem_takeWhile_imp member
    rw [Table.continuesNote, Bool.and_eq_true] at continues
    exact continues.1
  unfold defined? definedAt?
  refine Option.map_congr fun pair found => ?_
  obtain ⟨tag, text⟩ := pair
  dsimp only
  rw [footnoteText_eq (trim_of_footnote? found) filled]

theorem definedFootnotes_cons (line : Text) (rest : List Text) :
    definedFootnotes (line :: rest) = (definedAt? (line :: rest)).toList ++ definedFootnotes rest := by
  unfold definedFootnotes
  rw [List.tails_cons, List.filterMap_cons]
  cases definedAt? (line :: rest) <;> rfl

theorem definedFootnotes_dropWhile (lines : List Text) :
    definedFootnotes (lines.dropWhile Table.continuesNote) = definedFootnotes lines := by
  induction lines with
  | nil => rfl
  | cons line rest ih =>
    by_cases continues : Table.continuesNote line = true
    · have none : definedAt? (line :: rest) = none := by
        rw [Table.continuesNote, Bool.and_eq_true, Option.isNone_iff_eq_none] at continues
        simp [definedAt?, continues.2]
      rw [List.dropWhile_cons_of_pos continues, ih, definedFootnotes_cons, none]
      rfl
    · rw [List.dropWhile_cons_of_neg continues]

theorem footnotes_definitions (lines : List Text) :
    (definitions lines).filterMap defined? = definedFootnotes lines := by
  fun_induction definitions lines with
  | case1 => rfl
  | case2 line rest found ih =>
    rw [List.filterMap_cons, ih, definedFootnotes_dropWhile, definedFootnotes_cons, defined?_eq]
    cases definedAt? (line :: rest) <;> rfl
  | case3 line rest other ih =>
    have none : definedAt? (line :: rest) = none := by
      rw [isDefinition, Option.not_isSome_iff_eq_none] at other
      simp [definedAt?, other]
    rw [ih, definedFootnotes_cons, none]
    rfl

theorem define_eq_put (footnote : Footnote) (known : List Footnote) :
    Table.define footnote known = Keyed.put Footnote.tag footnote known := by
  induction known with
  | nil => rfl
  | cons first rest ih => rw [Table.define, Keyed.put, ih]

theorem footnotes_eq_latest (lines : List Text) (anchor : Option Text) :
    (Table.parse lines anchor).footnotes =
      Keyed.latest Footnote.tag (definedFootnotes (Table.sections lines).notes) := by
  rw [footnotes_parse, footnotesFrom, footnotes_definitions, ← Keyed.ofList_eq_latest]
  simp only [define_eq_put]
  rfl

theorem tag_of_footnote? {line tag text : Text} (found : footnote? line = some (tag, text)) :
    ∃ name, tag = '#' :: name ∧ ']' ∉ name := by
  unfold footnote? at found
  split at found
  · cases found
  · next cut after parted =>
    obtain ⟨rest, -, closed⟩ := Option.bind_eq_some_iff.mp parted
    have free : ']' ∉ cut := not_mem_of_not_occurs (occurs_before_cut? (List.cons_ne_nil _ _) closed)
    split at found
    · next lead =>
      have same : tag = cut := by
        split at found
        · cases found
          rfl
        · obtain ⟨_, -, equal⟩ := Option.map_eq_some_iff.mp found
          exact (Prod.mk.inj equal).1.symm
      rw [Bool.and_eq_true, startsWith_iff] at lead
      obtain ⟨name, rfl⟩ := lead.1
      exact ⟨name, same, fun member => free (List.mem_cons_of_mem _ member)⟩
    · cases found

theorem tag_of_mem_footnotes {lines : List Text} {anchor : Option Text} {footnote : Footnote}
    (member : footnote ∈ (Table.parse lines anchor).footnotes) : ∃ name, footnote.tag = '#' :: name ∧ ']' ∉ name := by
  rw [footnotes_eq_latest] at member
  obtain ⟨tail, -, defined⟩ := List.mem_filterMap.mp (Keyed.mem_of_last? (Keyed.last?_of_mem_latest member))
  cases tail with
  | nil => cases defined
  | cons line below =>
    obtain ⟨⟨tag, text⟩, found, rfl⟩ := Option.map_eq_some_iff.mp defined
    exact tag_of_footnote? found

theorem footnotePosition?_eq_some {table : Table} {tag : Text} {position : Nat}
    (found : table.footnotePosition? tag = some position) :
    1 ≤ position ∧ ∃ footnote, table.footnotes[position - 1]? = some footnote ∧
      table.footnotes.find? (fun footnote => footnote.tag = tag) = some footnote := by
  obtain ⟨index, first, rfl⟩ := Option.map_eq_some_iff.mp found
  obtain ⟨short, own, earlier⟩ := List.findIdx?_eq_some_iff_getElem.mp first
  refine ⟨Nat.le_add_left 1 index, table.footnotes[index], List.getElem?_eq_getElem short, ?_⟩
  exact List.find?_eq_some_iff_getElem.mpr ⟨own, index, short, rfl, fun j below => by simpa using earlier j below⟩

theorem footnotePosition?_eq_none {table : Table} {tag : Text} :
    table.footnotePosition? tag = none ↔ ∀ footnote ∈ table.footnotes, footnote.tag ≠ tag := by
  simp [Table.footnotePosition?]

end DocPress.Document
