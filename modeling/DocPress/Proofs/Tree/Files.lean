import DocPress.Tree
import Mathlib.Data.List.Dedup
import Mathlib.Data.List.Perm.Subperm

namespace DocPress.Tree

variable {tree : Tree} {path : Path} {location : Location}

def holdsFile (tree : Tree) (location : Location) : Bool :=
  match tree.entry? location with
  | some (.text _) => true
  | some .binary => true
  | some .directory => false
  | none => false

def files (tree : Tree) : List Location :=
  ((tree.entries.map Prod.fst).filter tree.holdsFile).dedup

theorem mem_files_iff : location ∈ tree.files ↔ tree.holdsFile location = true := by
  rw [files, List.mem_dedup, List.mem_filter]
  refine ⟨And.right, fun holds => ⟨?_, holds⟩⟩
  rw [holdsFile, entry?] at holds
  cases empty : location.isEmpty with
  | true => simp [empty] at holds
  | false =>
    cases found : tree.entries.lookup location with
    | none => simp [empty, found] at holds
    | some entry =>
      obtain ⟨before, after, split, _⟩ := List.lookup_eq_some_iff.mp found
      rw [split]
      simp

theorem length_files_le (tree : Tree) : tree.files.length ≤ tree.entries.length := by
  calc tree.files.length
    _ ≤ ((tree.entries.map Prod.fst).filter tree.holdsFile).length := (List.dedup_sublist _).length_le
    _ ≤ (tree.entries.map Prod.fst).length := List.length_filter_le _ _
    _ = tree.entries.length := List.length_map _

theorem resolve_of_access (found : tree.access path = .ok location) : tree.resolve path = .ok location := by
  rw [access] at found
  split at found
  · cases found
  · exact found

theorem isFile_eq_true_iff :
    tree.isFile path = true ↔ ∃ location, tree.access path = .ok location ∧ tree.holdsFile location = true := by
  rw [isFile]
  cases tree.access path with
  | error failure => simp
  | ok location =>
    simp only [Except.ok.injEq, exists_eq_left']
    cases found : tree.entry? location with
    | none => simp [holdsFile, found]
    | some entry => cases entry <;> simp [holdsFile, found]

theorem readText_eq_ok_iff {content : Text} : tree.readText path = .ok content ↔
    ∃ location, tree.access path = .ok location ∧ tree.entry? location = some (.text content) := by
  rw [readText]
  cases tree.access path with
  | error failure => simp [bind, Except.bind]
  | ok location =>
    simp only [bind, Except.bind, Except.ok.injEq, exists_eq_left']
    cases tree.entry? location with
    | none => simp
    | some entry => cases entry <;> simp

theorem isFile_of_readText {content : Text} (read : tree.readText path = .ok content) : tree.isFile path = true := by
  obtain ⟨location, accessed, found⟩ := readText_eq_ok_iff.mp read
  exact isFile_eq_true_iff.mpr ⟨location, accessed, by rw [holdsFile, found]⟩

theorem resolve_of_isFile (isFile : tree.isFile path = true) :
    ∃ location, tree.resolve path = .ok location ∧ location ∈ tree.files := by
  obtain ⟨location, accessed, holds⟩ := isFile_eq_true_iff.mp isFile
  exact ⟨location, resolve_of_access accessed, mem_files_iff.mpr holds⟩

def countOutside (tree : Tree) (places : List Location) : Nat :=
  tree.files.countP (· ∉ places)

theorem countOutside_le (tree : Tree) (places : List Location) : tree.countOutside places ≤ tree.files.length :=
  List.countP_le_length

theorem countOutside_append_lt {places : List Location} (file : location ∈ tree.files) (outside : location ∉ places) :
    tree.countOutside (places ++ [location]) < tree.countOutside places := by
  have fewer : tree.files.filter (· ∉ places ++ [location]) =
      (tree.files.filter (· ∉ places)).filter (· ≠ location) := by
    rw [List.filter_filter]
    apply List.filter_congr
    intro other _
    simp [not_or, and_comm]
  rw [countOutside, countOutside, List.countP_eq_length_filter, List.countP_eq_length_filter, fewer,
    List.length_filter_lt_length_iff_exists]
  exact ⟨location, by simp [file, outside], by simp⟩

end DocPress.Tree
