import Mathlib.Data.List.Basic
import Mathlib.Data.List.Induction
import Mathlib.Data.Set.Function

namespace DocPress.Keyed

variable {α κ : Type} [DecidableEq κ] (key : α → κ)

def put (item : α) : List α → List α
  | [] => [item]
  | known :: rest => if key known = key item then item :: rest else known :: put item rest

def ofList (items : List α) : List α :=
  items.foldl (fun known item => put key item known) []

def last? (items : List α) (k : κ) : Option α :=
  (items.filter fun item => key item = k).getLast?

def keys (items : List α) : List κ :=
  (items.map key).eraseDups

def latest (items : List α) : List α :=
  (keys key items).filterMap (last? key items)

theorem eraseDups_concat (keys : List κ) (k : κ) :
    (keys ++ [k]).eraseDups = if k ∈ keys then keys.eraseDups else keys.eraseDups ++ [k] := by
  rw [List.eraseDups_append]
  by_cases known : k ∈ keys <;> simp [List.removeAll, known, List.eraseDups_cons]

theorem eraseDups_filter (p : κ → Bool) (keys : List κ) : (keys.filter p).eraseDups = keys.eraseDups.filter p := by
  induction keys using List.reverseRecOn with
  | nil => rfl
  | append_singleton keys k ih =>
    rw [List.filter_append, eraseDups_concat]
    cases kept : p k with
    | false => by_cases known : k ∈ keys <;> simp [kept, known, ih]
    | true =>
      rw [List.filter_cons_of_pos kept, List.filter_nil, eraseDups_concat, ih]
      by_cases known : k ∈ keys <;> simp [kept, known]

theorem eraseDups_map {ι : Type} [DecidableEq ι] {f : κ → ι} {keys : List κ}
    (apart : Set.InjOn f {k | k ∈ keys}) : (keys.map f).eraseDups = keys.eraseDups.map f := by
  induction keys using List.reverseRecOn with
  | nil => rfl
  | append_singleton keys k ih =>
    have known : f k ∈ keys.map f ↔ k ∈ keys := by
      refine ⟨fun member => ?_, List.mem_map_of_mem⟩
      obtain ⟨other, among, same⟩ := List.mem_map.mp member
      exact apart (List.mem_append_left _ among) (List.mem_append_right _ List.mem_cons_self) same ▸ among
    have below := ih (apart.mono fun other among => List.mem_append_left _ among)
    rw [List.map_append, List.map_singleton, eraseDups_concat, eraseDups_concat, below]
    simp only [known]
    split <;> simp

theorem pairwise_eraseDups (keys : List κ) : keys.eraseDups.Pairwise fun k l =>
    k ≠ l ∧ ∃ before after, keys = before ++ k :: after ∧ l ∉ before := by
  induction keys using List.reverseRecOn with
  | nil => simp
  | append_singleton keys last ih =>
    have kept : keys.eraseDups.Pairwise fun k l =>
        k ≠ l ∧ ∃ before after, keys ++ [last] = before ++ k :: after ∧ l ∉ before := by
      refine ih.imp ?_
      rintro k l ⟨apart, before, after, rfl, none⟩
      exact ⟨apart, before, after ++ [last], by simp, none⟩
    rw [eraseDups_concat]
    split
    · exact kept
    · next fresh =>
      refine List.pairwise_append.mpr ⟨kept, List.pairwise_singleton _ last, fun k member l final => ?_⟩
      obtain rfl := List.mem_singleton.mp final
      have known : k ∈ keys := List.mem_eraseDups.mp member
      obtain ⟨before, after, rfl⟩ := List.append_of_mem known
      refine ⟨fun same => fresh (same ▸ known), before, after ++ [l], by simp, fun above => ?_⟩
      exact fresh (List.mem_append_left _ above)

theorem nodup_eraseDups (keys : List κ) : keys.eraseDups.Nodup :=
  (pairwise_eraseDups keys).imp And.left

variable {key}

theorem last?_concat (items : List α) (item : α) (k : κ) :
    last? key (items ++ [item]) k = if key item = k then some item else last? key items k := by
  by_cases own : key item = k <;> simp [last?, own]

theorem key_of_last? {items : List α} {k : κ} {item : α} (found : last? key items k = some item) : key item = k := by
  simpa using (List.mem_filter.mp (List.mem_of_getLast? found)).2

theorem mem_of_last? {items : List α} {k : κ} {item : α} (found : last? key items k = some item) : item ∈ items :=
  (List.mem_filter.mp (List.mem_of_getLast? found)).1

theorem isSome_last?_iff {items : List α} {k : κ} : (last? key items k).isSome ↔ k ∈ items.map key := by
  simp [last?]

theorem mem_keys_iff {items : List α} {k : κ} : k ∈ keys key items ↔ k ∈ items.map key :=
  List.mem_eraseDups

theorem last?_eq_some_iff {items : List α} {k : κ} {item : α} : last? key items k = some item ↔
    key item = k ∧ ∃ before after, items = before ++ item :: after ∧ ∀ later ∈ after, key later ≠ k := by
  induction items using List.reverseRecOn with
  | nil => simp [last?]
  | append_singleton items last ih =>
    rw [last?_concat]
    constructor
    · intro found
      split at found
      · next own =>
        cases found
        exact ⟨own, items, [], rfl, nofun⟩
      · next other =>
        obtain ⟨own, before, after, rfl, none⟩ := ih.mp found
        refine ⟨own, before, after ++ [last], by simp, fun later member => ?_⟩
        rcases List.mem_append.mp member with member | member
        · exact none later member
        · rwa [List.mem_singleton.mp member]
    · rintro ⟨own, before, after, split, none⟩
      induction after using List.reverseRecOn with
      | nil =>
        obtain ⟨rfl, same⟩ := List.append_inj' split rfl
        cases same
        rw [if_pos own]
      | append_singleton after final _ =>
        rw [← List.cons_append, ← List.append_assoc] at split
        obtain ⟨rfl, same⟩ := List.append_inj' split rfl
        cases same
        rw [if_neg (none last (by simp)), ih]
        exact ⟨own, before, after, rfl, fun later member => none later (List.mem_append_left _ member)⟩

theorem exists_last? {items : List α} {k : κ} (member : k ∈ keys key items) :
    ∃ item, last? key items k = some item ∧ key item = k := by
  obtain ⟨item, found⟩ := Option.isSome_iff_exists.mp (isSome_last?_iff.mpr (mem_keys_iff.mp member))
  exact ⟨item, found, key_of_last? found⟩

theorem put_filterMap {keys : List κ} {f : κ → Option α} (nodup : keys.Nodup)
    (own : ∀ k ∈ keys, ∃ known, f k = some known ∧ key known = k) (item : α) :
    put key item (keys.filterMap f) =
      if key item ∈ keys then keys.filterMap fun k => if key item = k then some item else f k
      else keys.filterMap f ++ [item] := by
  induction keys with
  | nil => rfl
  | cons k keys ih =>
    obtain ⟨first, below⟩ := List.forall_mem_cons.mp own
    obtain ⟨known, found, rfl⟩ := first
    obtain ⟨fresh, unique⟩ := List.nodup_cons.mp nodup
    rw [List.filterMap_cons_some found, put]
    by_cases same : key known = key item
    · rw [if_pos same, if_pos (by simp [same]), List.filterMap_cons_some (b := item) (by simp [same])]
      congr 1
      refine List.filterMap_congr fun k member => ?_
      rw [if_neg]
      rintro rfl
      exact fresh (same ▸ member)
    · rw [if_neg same, ih unique below]
      have other : ¬ key item = key known := fun equal => same equal.symm
      by_cases member : key item ∈ keys <;> simp [member, other, found]

theorem ofList_concat (items : List α) (item : α) : ofList key (items ++ [item]) = put key item (ofList key items) := by
  rw [ofList, List.foldl_append]
  rfl

theorem ofList_eq_latest (items : List α) : ofList key items = latest key items := by
  induction items using List.reverseRecOn with
  | nil => rfl
  | append_singleton items item ih =>
    have nodup : (keys key items).Nodup := nodup_eraseDups _
    rw [ofList_concat, ih, latest, put_filterMap nodup fun _ => exists_last?, latest, keys, keys, List.map_append,
      List.map_singleton, eraseDups_concat]
    simp only [List.mem_eraseDups]
    split
    · exact List.filterMap_congr fun k _ => (last?_concat items item k).symm
    · next fresh =>
      rw [List.filterMap_append, List.filterMap_cons_some (b := item) (by simp [last?_concat]), List.filterMap_nil]
      congr 1
      refine List.filterMap_congr fun k member => ?_
      rw [last?_concat, if_neg]
      rintro rfl
      exact fresh (List.mem_eraseDups.mp member)

theorem map_key_latest (items : List α) : (latest key items).map key = keys key items := by
  rw [latest, List.map_filterMap]
  conv_rhs => rw [← List.filterMap_some (l := keys key items)]
  refine List.filterMap_congr fun k member => ?_
  obtain ⟨item, found, own⟩ := exists_last? member
  rw [found, Option.map_some, own]

theorem last?_of_mem_latest {items : List α} {item : α} (member : item ∈ latest key items) :
    last? key items (key item) = some item := by
  obtain ⟨k, _, found⟩ := List.mem_filterMap.mp member
  rw [key_of_last? found, found]

theorem mem_latest_iff {items : List α} {item : α} :
    item ∈ latest key items ↔ last? key items (key item) = some item := by
  refine ⟨last?_of_mem_latest, fun found => List.mem_filterMap.mpr ⟨key item, ?_, found⟩⟩
  exact mem_keys_iff.mpr (isSome_last?_iff.mp (Option.isSome_of_eq_some found))

theorem nodup_map_key_latest (items : List α) : ((latest key items).map key).Nodup := by
  rw [map_key_latest]
  exact nodup_eraseDups _

theorem find?_put (item : α) (known : List α) (k : κ) :
    (put key item known).find? (fun entry => key entry = k) =
      if key item = k then some item else known.find? fun entry => key entry = k := by
  induction known with
  | nil => by_cases own : key item = k <;> simp [put, own]
  | cons entry rest ih =>
    rw [put]
    split
    · next same => by_cases own : key item = k <;> simp [own, same]
    · next other =>
      by_cases first : key entry = k
      · have : ¬ key item = k := fun own => other (first.trans own.symm)
        simp [first, this]
      · rw [List.find?_cons_of_neg (by simpa using first), ih, List.find?_cons_of_neg (by simpa using first)]

theorem findIdx?_put (item : α) (known : List α) (k : κ) :
    (put key item known).findIdx? (fun entry => key entry = k) =
      (known.findIdx? fun entry => key entry = k).or (if key item = k then some known.length else none) := by
  induction known with
  | nil => by_cases own : key item = k <;> simp [put, own]
  | cons entry rest ih =>
    rw [put]
    split
    · next same => by_cases own : key item = k <;> simp [List.findIdx?_cons, own, same]
    · next other =>
      rw [List.findIdx?_cons, List.findIdx?_cons, ih]
      by_cases first : key entry = k
      · simp [first]
      · by_cases own : key item = k <;> simp [first, own]

theorem find?_latest (items : List α) (k : κ) :
    (latest key items).find? (fun entry => key entry = k) = last? key items k := by
  rw [← ofList_eq_latest]
  induction items using List.reverseRecOn with
  | nil => rfl
  | append_singleton items item ih => rw [ofList_concat, find?_put, ih, last?_concat]

end DocPress.Keyed
