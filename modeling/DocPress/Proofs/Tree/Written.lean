import DocPress.Proofs.Text.Trim
import DocPress.Proofs.Tree.Files

namespace DocPress.Tree
open Text

variable {tree : Tree} {path : Path} {place : Location} {entry : Entry}

theorem lookup_filter_ne {entries : List (Location × Entry)} {other : Location} (apart : other ≠ place) :
    (entries.filter fun known => known.1 ≠ place).lookup other = entries.lookup other := by
  induction entries with
  | nil => rfl
  | cons known rest ih =>
    obtain ⟨location, held⟩ := known
    by_cases same : location = place
    · rw [List.filter_cons_of_neg (by simpa using same), ih, List.lookup_cons, same, beq_false_of_ne apart]
    · rw [List.filter_cons_of_pos (by simpa using same), List.lookup_cons, List.lookup_cons, ih]

theorem put_entry (below : place ≠ []) (other : Location) :
    entry? (tree.put place entry) other = if other = place then some entry else tree.entry? other := by
  unfold entry? put
  cases other with
  | nil => rw [if_neg below.symm]; rfl
  | cons name rest =>
    simp only [List.isEmpty_cons, Bool.false_eq_true, if_false, List.lookup_cons]
    by_cases same : name :: rest = place
    · rw [if_pos same, beq_iff_eq.mpr same]
    · rw [if_neg same, beq_false_of_ne same]
      exact lookup_filter_ne same

theorem ne_nil_of_file (file : tree.entry? place ≠ some .directory) : place ≠ [] := by
  rintro rfl
  exact file rfl

theorem descend_eq_ok_iff {location next : Location} {component : Text} :
    tree.descend location component = .ok next ↔ tree.entry? location = some .directory ∧
      if Path.isIdle component then location = next
      else if component = "..".toList then location.dropLast = next
      else byteLength component ≤ 255 ∧ (tree.entry? (location ++ [component])).isSome ∧
        location ++ [component] = next := by
  unfold descend
  cases tree.entry? location with
  | none => simp
  | some entry =>
    cases entry with
    | text | binary => simp
    | directory =>
      by_cases idle : Path.isIdle component = true
      · simp [idle]
      · rw [if_neg idle, if_neg idle]
        by_cases up : component = "..".toList
        · rw [if_pos up, if_pos up]
          simp
        · rw [if_neg up, if_neg up]
          by_cases long : 255 < byteLength component
          · simp [long, Nat.not_le.mpr long]
          · by_cases held : (tree.entry? (location ++ [component])).isSome
            · simp [held, long, Nat.not_lt.mp long]
            · simp [held, long]

theorem put_entry_directory (file : tree.entry? place ≠ some .directory) {location : Location}
    (directory : tree.entry? location = some .directory) :
    entry? (tree.put place entry) location = some .directory := by
  rw [put_entry (ne_nil_of_file file), if_neg, directory]
  rintro rfl
  exact file directory

theorem descend_in {other : Tree} {location next : Location} {component : Text}
    (found : tree.descend location component = .ok next) (directory : other.entry? location = some .directory)
    (held : (tree.entry? next).isSome → (other.entry? next).isSome) : other.descend location component = .ok next := by
  rw [descend_eq_ok_iff] at found ⊢
  refine ⟨directory, ?_⟩
  have goes := found.2
  split at goes
  · next idle => rwa [if_pos idle]
  · next idle =>
    rw [if_neg idle]
    split at goes
    · next up => rwa [if_pos up]
    · next up =>
      obtain ⟨short, there, rfl⟩ := goes
      rw [if_neg up]
      exact ⟨short, held there, rfl⟩

theorem foldlM_cons_eq_ok {start next : Location} {component : Text} {components : List Text} :
    (component :: components).foldlM tree.descend start = .ok next ↔
      ∃ location, tree.descend start component = .ok location ∧
        components.foldlM tree.descend location = .ok next := by
  rw [List.foldlM_cons]
  cases tree.descend start component <;> simp [bind, Except.bind]

theorem access_eq_ok_iff {location : Location} : tree.access path = .ok location ↔
    accessFailure? path = none ∧ (splitAt '/' path).foldlM tree.descend (tree.startOf path) = .ok location := by
  unfold access resolve
  cases accessible : accessFailure? path with
  | some failure => simp
  | none =>
    have named : pathFailure? path = none := (Option.or_eq_none_iff.mp accessible).1
    simp [named]

theorem descend_put (file : tree.entry? place ≠ some .directory) {location next : Location} {component : Text}
    (found : tree.descend location component = .ok next) :
    (tree.put place entry).descend location component = .ok next := by
  refine descend_in found (put_entry_directory file (descend_eq_ok_iff.mp found).1) fun there => ?_
  rw [put_entry (ne_nil_of_file file)]
  split
  · rfl
  · exact there

theorem foldlM_descend_put (file : tree.entry? place ≠ some .directory) {components : List Text}
    {start next : Location} (found : components.foldlM tree.descend start = .ok next) :
    components.foldlM (tree.put place entry).descend start = .ok next := by
  induction components generalizing start with
  | nil => exact found
  | cons component components ih =>
    obtain ⟨location, first, below⟩ := foldlM_cons_eq_ok.mp found
    exact foldlM_cons_eq_ok.mpr ⟨location, descend_put file first, ih below⟩

theorem access_put (file : tree.entry? place ≠ some .directory) {location : Location}
    (found : tree.access path = .ok location) : (tree.put place entry).access path = .ok location := by
  obtain ⟨accessible, walked⟩ := access_eq_ok_iff.mp found
  exact access_eq_ok_iff.mpr ⟨accessible, foldlM_descend_put file walked⟩

theorem descend_eq_notFound {directory : Location} {name : Text}
    (missing : tree.descend directory name = .error .notFound) (held : (tree.entry? directory).isSome) :
    tree.entry? directory = some .directory ∧ ¬ Path.isIdle name = true ∧ name ≠ "..".toList ∧
      byteLength name ≤ 255 ∧ tree.entry? (directory ++ [name]) = none := by
  unfold descend at missing
  cases found : tree.entry? directory with
  | none => simp [found] at held
  | some entry =>
    cases entry with
    | text | binary => simp [found] at missing
    | directory =>
      simp only [found] at missing
      grind [Option.isSome_iff_ne_none]

theorem dropEndWhile_isEmpty_eq_self {components : List Text} (filled : components.getLast? ≠ some []) :
    dropEndWhile List.isEmpty components = components := by
  rw [dropEndWhile_eq_rdropWhile, List.rdropWhile_eq_self_iff]
  intro some empty
  rw [List.getLast?_eq_some_getLast some, List.isEmpty_iff.mp empty] at filled
  exact filled rfl

theorem writable_eq_ok (found : tree.writable path = .ok place) :
    accessFailure? path = none ∧ ∃ above directory name, splitAt '/' path = above ++ [name] ∧
      above.foldlM tree.descend (tree.startOf path) = .ok directory ∧
      (tree.descend directory name = .ok place ∧ tree.entry? place ≠ some .directory ∨
        tree.descend directory name = .error .notFound ∧ (tree.entry? directory).isSome ∧
          place = directory ++ [name]) := by
  unfold writable at found
  cases inaccessible : accessFailure? path with
  | some failure => simp [inaccessible] at found
  | none =>
    cases last : (dropEndWhile List.isEmpty (splitAt '/' path)).getLast? with
    | none => simp [inaccessible, last] at found
    | some name =>
      simp only [inaccessible, last] at found
      cases walked : (dropEndWhile List.isEmpty (splitAt '/' path)).dropLast.foldlM tree.descend
          (tree.startOf path) with
      | error failure => simp [walked, bind, Except.bind] at found
      | ok directory =>
        simp only [walked, bind, Except.bind] at found
        have filled : (splitAt '/' path).getLast? ≠ some [] := by
          intro slash
          simp only [slash] at found
          split at found
          · split at found <;> cases found
          · cases found
          · cases found
        rw [dropEndWhile_isEmpty_eq_self filled] at last walked
        have whole : splitAt '/' path = (splitAt '/' path).dropLast ++ [name] :=
          (List.dropLast_append_getLast? name last).symm
        refine ⟨rfl, _, directory, name, whole, walked, ?_⟩
        simp only [beq_eq_false_iff_ne.mpr filled, Bool.false_or, Bool.false_eq_true, if_false] at found
        split at found
        · next missing =>
          split at found
          · cases found
          · next held =>
            cases found
            exact .inr ⟨missing, by simpa [Option.isSome_iff_ne_none] using held, rfl⟩
        · cases found
        · next location leads =>
          split at found
          · cases found
          · next file =>
            cases found
            exact .inl ⟨leads, by simpa using file⟩

theorem access_of_writable (found : tree.writable path = .ok place) :
    tree.entry? place ≠ some .directory ∧ (tree.put place entry).access path = .ok place := by
  obtain ⟨accessible, above, directory, name, whole, walked, ends⟩ := writable_eq_ok found
  have reached : tree.entry? place ≠ some .directory ∧
      (tree.put place entry).descend directory name = .ok place := by
    rcases ends with ⟨leads, file⟩ | ⟨missing, held, rfl⟩
    · exact ⟨file, descend_put file leads⟩
    · obtain ⟨open', idle, up, short, none⟩ := descend_eq_notFound missing held
      have file : tree.entry? (directory ++ [name]) ≠ some .directory := by simp [none]
      refine ⟨file, descend_eq_ok_iff.mpr ⟨put_entry_directory file open', ?_⟩⟩
      rw [if_neg idle, if_neg up, put_entry (ne_nil_of_file file), if_pos rfl]
      exact ⟨short, rfl, rfl⟩
  have walked : above.foldlM (tree.put place entry).descend (tree.startOf path) = .ok directory :=
    foldlM_descend_put reached.1 walked
  refine ⟨reached.1, access_eq_ok_iff.mpr ⟨accessible, ?_⟩⟩
  rw [whole, List.foldlM_append]
  change above.foldlM (tree.put place entry).descend (tree.startOf path) >>= _ = _
  rw [walked]
  exact foldlM_cons_eq_ok.mpr ⟨place, reached.2, rfl⟩

theorem descend_of_put (below : place ≠ []) {location next : Location} {component : Text} (start : location ≠ place)
    (found : (tree.put place entry).descend location component = .ok next) :
    next = place ∨ tree.descend location component = .ok next := by
  refine or_iff_not_imp_left.mpr fun apart => ?_
  have directory := (descend_eq_ok_iff.mp found).1
  rw [put_entry below, if_neg start] at directory
  refine descend_in found directory fun there => ?_
  rwa [put_entry below, if_neg apart] at there

theorem foldlM_descend_put_self (below : place ≠ []) (file : entry ≠ .directory) {components : List Text}
    {next : Location} (found : components.foldlM (tree.put place entry).descend place = .ok next) : next = place := by
  cases components with
  | nil =>
    cases found
    rfl
  | cons component components =>
    obtain ⟨location, first, _⟩ := foldlM_cons_eq_ok.mp found
    have opened := (descend_eq_ok_iff.mp first).1
    rw [put_entry below, if_pos rfl] at opened
    exact absurd (Option.some.inj opened) file

theorem foldlM_descend_of_put (below : place ≠ []) (file : entry ≠ .directory) {components : List Text}
    {start next : Location} (found : components.foldlM (tree.put place entry).descend start = .ok next) :
    next = place ∨ components.foldlM tree.descend start = .ok next := by
  induction components generalizing start with
  | nil => exact .inr found
  | cons component components ih =>
    -- The walk is at the file already and stays there, or it takes a step that the old tree has too.
    by_cases inside : start = place
    · subst inside
      exact .inl (foldlM_descend_put_self below file found)
    · obtain ⟨location, first, rest⟩ := foldlM_cons_eq_ok.mp found
      rcases descend_of_put below inside first with rfl | old
      · exact .inl (foldlM_descend_put_self below file rest)
      · exact (ih rest).imp_right fun walked => foldlM_cons_eq_ok.mpr ⟨location, old, walked⟩

theorem access_of_put (below : place ≠ []) (file : entry ≠ .directory) {location : Location}
    (found : (tree.put place entry).access path = .ok location) :
    location = place ∨ tree.access path = .ok location := by
  obtain ⟨accessible, walked⟩ := access_eq_ok_iff.mp found
  exact (foldlM_descend_of_put below file walked).imp_right fun old => access_eq_ok_iff.mpr ⟨accessible, old⟩

/-- A tree in which a path leads to a text, and which is another tree at every other place. -/
structure Writes (tree : Tree) (path : Path) (content : Text) (written : Tree) : Prop where
  content : written.readText path = .ok content
  workingDirectory : written.workingDirectory = tree.workingDirectory
  elsewhere : ∃ location, written.access path = .ok location ∧
    (∀ other, other ≠ location → written.entry? other = tree.entry? other) ∧
    ∀ other, written.access other ≠ .ok location →
      (written.readText other).toOption = (tree.readText other).toOption

theorem writes_of_writeText {content : Text} {written : Tree} (done : tree.writeText path content = .ok written) :
    tree.Writes path content written := by
  unfold writeText at done
  cases found : tree.writable path with
  | error failure => simp [found, Except.map] at done
  | ok location =>
    rw [found] at done
    cases done
    obtain ⟨file, accessed⟩ : tree.entry? location ≠ some .directory ∧
        (tree.put location (.text content)).access path = .ok location := access_of_writable found
    have entries : ∀ other, entry? (tree.put location (.text content)) other =
        if other = location then some (.text content) else tree.entry? other := put_entry (ne_nil_of_file file)
    refine ⟨readText_eq_ok_iff.mpr ⟨location, accessed, ?_⟩, rfl, location, accessed, ?_, ?_⟩
    · rw [entries, if_pos rfl]
    · intro other apart
      rw [entries, if_neg apart]
    · intro other apart
      -- A path that cannot be read may fail in another way now, for the file may be in its way.
      unfold readText
      cases leads : (tree.put location (.text content)).access other with
      | error failure =>
        cases old : tree.access other with
        | error failure' => rfl
        | ok place => cases leads.symm.trans (access_put file old)
      | ok place =>
        have moved : place ≠ location := fun same => apart (same ▸ leads)
        have old := (access_of_put (ne_nil_of_file file) (by simp) leads).resolve_left moved
        simp only [old, bind, Except.bind, entries, if_neg moved]

end DocPress.Tree
