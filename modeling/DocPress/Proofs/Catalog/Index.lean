import DocPress.Catalog.Reader
import DocPress.Proofs.Keyed.Latest

namespace DocPress.Catalog

theorem put_eq_modify (phrase : Phrase) (entries : List Phrase) :
    Keyed.put Phrase.source phrase entries =
      match entries.findIdx? fun entry => entry.source = phrase.source with
      | some position => entries.modify position fun entry => { entry with target := phrase.target }
      | none => entries ++ [phrase] := by
  induction entries with
  | nil => rfl
  | cons entry rest ih =>
    rw [Keyed.put, List.findIdx?_cons]
    by_cases same : entry.source = phrase.source
    · simp [same]
    · simp only [same, if_false, decide_false, Bool.false_eq_true, ih]
      cases rest.findIdx? fun entry => entry.source = phrase.source <;> rfl

theorem find?_eq_bind (entries : List Phrase) (source : Text) :
    entries.find? (fun entry => entry.source = source) =
      (entries.findIdx? fun entry => entry.source = source).bind fun position => entries[position]? := by
  induction entries with
  | nil => rfl
  | cons entry rest ih =>
    rw [List.findIdx?_cons]
    by_cases same : entry.source = source
    · simp [same]
    · rw [List.find?_cons_of_neg (by simpa using same), ih, if_neg (by simpa using same), Option.bind_map]
      rfl

def Indexed (catalog : Catalog) : Prop :=
  ∀ source, catalog.position? source = catalog.entries.findIdx? fun entry => entry.source = source

namespace Indexed
variable {catalog : Catalog} (indexed : catalog.Indexed)
include indexed

theorem entries_insert (phrase : Phrase) :
    (catalog.insert phrase).entries = Keyed.put Phrase.source phrase catalog.entries := by
  rw [put_eq_modify, ← indexed phrase.source, Catalog.insert]
  cases catalog.position? phrase.source <;> rfl

theorem insert (phrase : Phrase) : (catalog.insert phrase).Indexed := by
  intro source
  rw [indexed.entries_insert, Keyed.findIdx?_put, ← indexed source]
  unfold Catalog.insert
  cases known : catalog.position? phrase.source with
  | some position =>
    change catalog.position? source = _
    by_cases own : phrase.source = source
    · rw [← own, known, Option.some_or]
    · rw [if_neg own, Option.or_none]
  | none =>
    change List.lookup source ((phrase.source, catalog.entries.length) :: catalog.index) = _
    by_cases own : phrase.source = source
    · rw [← own, known, if_pos rfl, Option.none_or, List.lookup_cons_self]
    · rw [if_neg own, Option.or_none, List.lookup_cons, beq_false_of_ne fun same => own same.symm]
      rfl

theorem get?_eq (source : Text) : catalog.get? source =
    (catalog.entries.find? fun entry => entry.source = source).map Phrase.target := by
  rw [find?_eq_bind, ← indexed source, Option.map_bind]
  rfl

end Indexed

theorem entries_foldl_insert (phrases : List Phrase) {catalog : Catalog} (indexed : catalog.Indexed) :
    (phrases.foldl insert catalog).Indexed ∧ (phrases.foldl insert catalog).entries =
      phrases.foldl (fun known phrase => Keyed.put Phrase.source phrase known) catalog.entries := by
  induction phrases generalizing catalog with
  | nil => exact ⟨indexed, rfl⟩
  | cons phrase phrases ih =>
    rw [List.foldl_cons, List.foldl_cons, ← indexed.entries_insert]
    exact ih (indexed.insert phrase)

theorem indexed_empty : Indexed {} := fun _ => rfl

theorem entries_ofList (phrases : List Phrase) : (ofList phrases).entries = Keyed.latest Phrase.source phrases := by
  rw [← Keyed.ofList_eq_latest]
  exact (entries_foldl_insert phrases indexed_empty).2

theorem indexed_ofList (phrases : List Phrase) : (ofList phrases).Indexed :=
  (entries_foldl_insert phrases indexed_empty).1

theorem get?_ofList (phrases : List Phrase) (source : Text) :
    (ofList phrases).get? source = (Keyed.last? Phrase.source phrases source).map Phrase.target := by
  rw [(indexed_ofList phrases).get?_eq, entries_ofList, Keyed.find?_latest]

theorem mem_ofList {entry : Phrase} {phrases : List Phrase} (member : entry ∈ (ofList phrases).entries) :
    entry ∈ phrases := by
  rw [entries_ofList] at member
  exact Keyed.mem_of_last? (Keyed.last?_of_mem_latest member)

end DocPress.Catalog
