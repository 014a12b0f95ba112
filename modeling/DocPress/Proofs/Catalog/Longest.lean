import DocPress.Proofs.Catalog.Index
import DocPress.Proofs.Text.Search
import Mathlib.Data.Finset.Card
import Mathlib.Data.Finset.Dedup

namespace DocPress.Catalog
open Text

/-! ## The longest match -/

/-- An entry that occurs in the line, with a longer source than those that do above it, and no shorter one than those that do
below it. -/
def Longest (entries : List Phrase) (line : Text) (entry : Phrase) : Prop :=
  ∃ above below, entries = above ++ entry :: below ∧ entry.source <:+: line ∧
    (∀ other ∈ above, other.source <:+: line → other.source.length < entry.source.length) ∧
    ∀ other ∈ below, other.source <:+: line → other.source.length ≤ entry.source.length

section
variable {entries : List Phrase} {line : Text} {entry other current last : Phrase}

theorem Longest.mem (longest : Longest entries line entry) : entry ∈ entries := by
  obtain ⟨above, below, rfl, -⟩ := longest
  simp

theorem Longest.occurs (longest : Longest entries line entry) : entry.source <:+: line := by
  obtain ⟨_, _, -, occurs, -⟩ := longest
  exact occurs

theorem Longest.length_le (longest : Longest entries line entry) (member : other ∈ entries)
    (occurs : other.source <:+: line) : other.source.length ≤ entry.source.length := by
  obtain ⟨above, below, rfl, -, before, after⟩ := longest
  rcases List.mem_append.mp member with member | member
  · exact (before other member occurs).le
  · rcases List.mem_cons.mp member with rfl | member
    · exact le_rfl
    · exact after other member occurs

theorem Longest.forall_length_lt_iff (longest : Longest entries line entry) {n : Nat} :
    (∀ other ∈ entries, other.source <:+: line → other.source.length < n) ↔ entry.source.length < n :=
  ⟨fun shorter => shorter entry longest.mem longest.occurs,
    fun longer _ member occurs => (longest.length_le member occurs).trans_lt longer⟩

theorem longest_concat_iff : Longest (entries ++ [last]) line entry ↔
    (last = entry ∧ last.source <:+: line ∧
      ∀ other ∈ entries, other.source <:+: line → other.source.length < last.source.length) ∨
    (Longest entries line entry ∧ (last.source <:+: line → last.source.length ≤ entry.source.length)) := by
  constructor
  · rintro ⟨above, below, split, occurs, before, after⟩
    induction below using List.reverseRecOn with
    | nil =>
      obtain ⟨rfl, same⟩ := List.append_inj' split rfl
      cases same
      exact .inl ⟨rfl, occurs, before⟩
    | append_singleton below final _ =>
      rw [← List.cons_append, ← List.append_assoc] at split
      obtain ⟨rfl, same⟩ := List.append_inj' split rfl
      cases same
      obtain ⟨after, shorter⟩ := List.forall_mem_append.mp after
      exact .inr ⟨⟨above, below, rfl, occurs, before, after⟩, List.forall_mem_singleton.mp shorter⟩
  · rintro (⟨rfl, occurs, longer⟩ | ⟨⟨above, below, rfl, occurs, before, after⟩, shorter⟩)
    · exact ⟨entries, [], rfl, occurs, longer, nofun⟩
    · refine ⟨above, below ++ [last], by simp, occurs, before, ?_⟩
      exact List.forall_mem_append.mpr ⟨after, List.forall_mem_singleton.mpr shorter⟩

theorem better_some_iff : better (some current) last = some entry ↔
    (last = entry ∧ current.source.length < last.source.length) ∨
      (current = entry ∧ last.source.length ≤ current.source.length) := by
  rw [better]
  split
  · next longer => simp [longer]
  · next shorter => simp [shorter, not_lt.mp shorter]

theorem longestMatch?_concat (entries : List Phrase) (index : List (Text × Nat)) (last : Phrase) (line : Text) :
    longestMatch? ⟨entries ++ [last], index⟩ line =
      if occurs last.source line then better (longestMatch? ⟨entries, index⟩ line) last
      else longestMatch? ⟨entries, index⟩ line := by
  simp only [longestMatch?, List.filter_append, List.filter_cons, List.filter_nil]
  split
  · rw [List.foldl_append, List.foldl_cons, List.foldl_nil]
  · rw [List.append_nil]

theorem longestMatch?_eq_none_iff {catalog : Catalog} :
    catalog.longestMatch? line = none ↔ ∀ entry ∈ catalog.entries, ¬entry.source <:+: line := by
  obtain ⟨entries, index⟩ := catalog
  induction entries using List.reverseRecOn with
  | nil => simp [longestMatch?]
  | append_singleton entries last ih =>
    rw [longestMatch?_concat, List.forall_mem_append, List.forall_mem_singleton, ← occurs_iff]
    split
    · next inside =>
      refine iff_of_false ?_ fun none => none.2 inside
      cases longestMatch? ⟨entries, index⟩ line with
      | none => nofun
      | some current =>
        rw [better]
        split <;> nofun
    · next outside => rw [and_iff_left outside, ih]

theorem longestMatch?_eq_some_iff {catalog : Catalog} :
    catalog.longestMatch? line = some entry ↔ Longest catalog.entries line entry := by
  obtain ⟨entries, index⟩ := catalog
  induction entries using List.reverseRecOn generalizing entry with
  | nil => simp [longestMatch?, Longest]
  | append_singleton entries last ih =>
    rw [longestMatch?_concat, longest_concat_iff, ← ih]
    split
    · next inside =>
      have occurs := occurs_iff.mp inside
      cases chosen : longestMatch? ⟨entries, index⟩ line with
      | none =>
        have none : ∀ other ∈ entries, ¬other.source <:+: line := longestMatch?_eq_none_iff.mp chosen
        have first : ∀ other ∈ entries, other.source <:+: line → other.source.length < last.source.length :=
          fun other member found => absurd found (none other member)
        rw [better, Option.some.injEq]
        refine ⟨fun same => .inl ⟨same, occurs, first⟩, ?_⟩
        rintro (⟨same, -⟩ | ⟨⟨⟩, -⟩)
        exact same
      | some current =>
        have longest : Longest entries line current := ih.mp chosen
        rw [better_some_iff, longest.forall_length_lt_iff, and_iff_right occurs, Option.some.injEq, imp_iff_right occurs]
        refine or_congr_right (and_congr_right ?_)
        rintro rfl
        rfl
    · next outside =>
      have absent : ¬last.source <:+: line := fun occurs => outside (occurs_iff.mpr occurs)
      simp [absent]

end

/-! ## All that has been inserted -/

theorem mem_entries_ofList_iff {phrases : List Phrase} {entry : Phrase} : entry ∈ (ofList phrases).entries ↔
    ∃ before after, phrases = before ++ entry :: after ∧ ∀ later ∈ after, later.source ≠ entry.source := by
  rw [entries_ofList, Keyed.mem_latest_iff, Keyed.last?_eq_some_iff, and_iff_right rfl]

theorem get?_ofList_eq_some_iff {phrases : List Phrase} {source target : Text} :
    (ofList phrases).get? source = some target ↔ ⟨source, target⟩ ∈ (ofList phrases).entries := by
  rw [get?_ofList, Option.map_eq_some_iff, entries_ofList, Keyed.mem_latest_iff]
  constructor
  · rintro ⟨⟨source', target'⟩, found, rfl⟩
    obtain rfl : source' = source := Keyed.key_of_last? found
    exact found
  · exact fun found => ⟨_, found, rfl⟩

theorem sources_ofList (phrases : List Phrase) :
    (ofList phrases).entries.map Phrase.source = Keyed.keys Phrase.source phrases := by
  rw [entries_ofList, Keyed.map_key_latest]

theorem pairwise_sources_ofList (phrases : List Phrase) :
    ((ofList phrases).entries.map Phrase.source).Pairwise fun first second =>
      first ≠ second ∧ ∃ before after, phrases.map Phrase.source = before ++ first :: after ∧ second ∉ before := by
  rw [sources_ofList]
  exact Keyed.pairwise_eraseDups _

theorem nodup_sources_ofList (phrases : List Phrase) : ((ofList phrases).entries.map Phrase.source).Nodup :=
  (pairwise_sources_ofList phrases).imp And.left

theorem size_ofList (phrases : List Phrase) : (ofList phrases).size = (phrases.map Phrase.source).toFinset.card := by
  have same : ((ofList phrases).entries.map Phrase.source).toFinset = (phrases.map Phrase.source).toFinset := by
    ext source
    rw [sources_ofList, List.mem_toFinset, List.mem_toFinset, Keyed.mem_keys_iff]
  rw [← same, List.toFinset_card_of_nodup (nodup_sources_ofList phrases), List.length_map, size]

theorem position?_ofList_eq_some_iff {phrases : List Phrase} {source : Text} {position : Nat} :
    (ofList phrases).position? source = some position ↔
      ∃ target, (ofList phrases).entries[position]? = some ⟨source, target⟩ := by
  have apart := List.pairwise_iff_getElem.mp (List.pairwise_map.mp (nodup_sources_ofList phrases))
  rw [indexed_ofList phrases source, List.findIdx?_eq_some_iff_getElem]
  constructor
  · rintro ⟨inside, own, -⟩
    refine ⟨((ofList phrases).entries[position]).target, ?_⟩
    rw [List.getElem?_eq_getElem inside, ← of_decide_eq_true own]
  · rintro ⟨target, found⟩
    obtain ⟨inside, at_position⟩ := List.getElem?_eq_some_iff.mp found
    refine ⟨inside, by simp [at_position], fun earlier before same => ?_⟩
    refine apart earlier position (by omega) inside before ?_
    rw [at_position, of_decide_eq_true same]

/-- The catalog of phrases inserted one after another. Its sources are distinct and stand in the order in which they first
came, each with the target that came last, and the index leads to the place of each. So a source has the target that is listed
for it, and there are as many entries as sources. The match of a line is the first of the longest sources in it. -/
theorem insertions_listed (phrases : List Phrase) :
    let catalog := phrases.foldl insert {}
    ((catalog.entries.map Phrase.source).Pairwise fun first second =>
      first ≠ second ∧ ∃ before after, phrases.map Phrase.source = before ++ first :: after ∧ second ∉ before) ∧
    (∀ entry, entry ∈ catalog.entries ↔
      ∃ before after, phrases = before ++ entry :: after ∧ ∀ later ∈ after, later.source ≠ entry.source) ∧
    (∀ source position, catalog.position? source = some position ↔
      ∃ target, catalog.entries[position]? = some ⟨source, target⟩) ∧
    (∀ source target, catalog.get? source = some target ↔ ⟨source, target⟩ ∈ catalog.entries) ∧
    catalog.size = (phrases.map Phrase.source).toFinset.card ∧
    ∀ line, (catalog.longestMatch? line = none ↔ ∀ entry ∈ catalog.entries, ¬entry.source <:+: line) ∧
      ∀ entry, catalog.longestMatch? line = some entry ↔ Longest catalog.entries line entry := by
  intro catalog
  exact ⟨pairwise_sources_ofList phrases, fun _ => mem_entries_ofList_iff, fun _ _ => position?_ofList_eq_some_iff,
    fun _ _ => get?_ofList_eq_some_iff, size_ofList phrases,
    fun _ => ⟨longestMatch?_eq_none_iff, fun _ => longestMatch?_eq_some_iff⟩⟩

example :
    let catalog : Catalog := .ofList [⟨"page".toList, "Blatt".toList⟩, ⟨"line".toList, "Zeile".toList⟩, ⟨"page".toList, "Seite".toList⟩]
    catalog.entries.map Phrase.target = ["Seite".toList, "Zeile".toList] ∧
      (catalog.longestMatch? "a line on a page".toList).map Phrase.target = some "Seite".toList := by
  decide +kernel

end DocPress.Catalog
