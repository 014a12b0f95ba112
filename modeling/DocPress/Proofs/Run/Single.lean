import DocPress.Proofs.Flatten.Stitched
import DocPress.Run

namespace DocPress.Flatten
open Text Heading

/-! ## Flattening -/

def Piece.lines : Piece → List Text
  | .underline _ line | .plain line => [line]
  | .toctree options _ => options
  | .inclusion .. => []

theorem lines_piecesFrom_subset (number : Nat) (lines : List Text) :
    (piecesFrom number lines).flatMap Piece.lines ⊆ lines := by
  induction number, lines using piecesFrom.induct with
  | case1 number => simp [piecesFrom]
  | case2 number line rest marker found ih =>
    rw [piecesFrom_underline found]
    exact List.cons_subset_cons line ih
  | case3 number line rest found toctree options below =>
    rename_i ih
    rw [piecesFrom_toctree found toctree, List.flatMap_cons]
    have later : below.dropWhile isFilled ⊆ rest := fun line member =>
      (List.dropWhile_suffix _).subset (List.mem_of_mem_drop ((List.dropWhile_suffix _).subset member))
    refine List.subset_cons_of_subset line (List.append_subset.mpr ⟨?_, List.Subset.trans ih later⟩)
    exact (List.takeWhile_prefix isFilled).subset
  | case4 number line rest found toctree inclusion ih =>
    rw [piecesFrom_include found toctree inclusion]
    exact List.subset_cons_of_subset line ih
  | case5 number line rest found toctree inclusion ih =>
    rw [piecesFrom_plain found toctree inclusion]
    exact List.cons_subset_cons line ih

def Task.Single : Task → Prop
  | .body _ _ pieces => ∀ line ∈ pieces.flatMap Piece.lines, '\n' ∉ line
  | .opening .. | .listing .. => True

theorem Task.Single.tail {file : Path} {level below : Nat} {piece : Piece} {rest : List Piece}
    (single : Task.Single (.body file level (piece :: rest))) : Task.Single (.body file below rest) :=
  fun line member => single line (List.mem_append_right _ member)

theorem single_contentsEvents (context : Context) : ∀ line ∈ written (contentsEvents context), '\n' ∉ line :=
  forall_written_contentsEvents context (by decide)

theorem single_toctreeHead? {level below : Nat} {options : List Text} {head : List Event}
    (heads : toctreeHead? level options = some (head, below)) (single : ∀ line ∈ options, '\n' ∉ line) :
    ∀ line ∈ written head, '\n' ∉ line := by
  rcases toctreeHead?_cases heads with ⟨-, rfl, -⟩ | ⟨caption, marker, found, -, rfl, -⟩
  · simp
  · obtain ⟨option, among, subset⟩ := caption_subset found
    have title : '\n' ∉ caption := not_mem_of_subset (single option among) subset
    have fitted : '\n' ∉ underlineFor caption marker := by
      intro member
      have equal := List.eq_of_mem_replicate member
      cases marker <;> cases equal
    rw [written_captionEvents]
    simp [title, fitted]

theorem Flattens.single {tree : Tree} {limit : Nat} {task : Task} {context after : Context} {events : List Event}
    (flattens : Flattens tree limit task context events after) (single : task.Single) :
    ∀ line ∈ written events, '\n' ∉ line := by
  induction flattens with
  | opening _ _ expanded _ ih =>
    exact ih fun line member => single_expandedLines? expanded line (lines_piecesFrom_subset 1 _ member)
  | nil | noEntries => simp
  | underline _ ih | plain _ ih =>
    exact List.forall_mem_cons.mpr ⟨single _ List.mem_cons_self, ih single.tail⟩
  | inclusion _ _ _ first second =>
    rw [written_append]
    exact List.forall_mem_append.mpr ⟨first trivial, List.forall_mem_cons.mpr ⟨List.not_mem_nil, second single.tail⟩⟩
  | @toctree _ _ _ context _ _ _ _ _ _ _ _ _ heads _ _ first second =>
    have head := single_toctreeHead? heads fun line member => single line (List.mem_append_left _ member)
    simp only [written_append, List.append_assoc, List.forall_mem_append]
    exact ⟨single_contentsEvents context, head, first trivial, second single.tail⟩
  | entry _ _ _ first second =>
    rw [written_append]
    exact List.forall_mem_append.mpr ⟨first trivial, List.forall_mem_cons.mpr ⟨List.not_mem_nil, second trivial⟩⟩

theorem single_flattenTree {tree : Tree} {root : Path} {context : Context} {lines : List Text}
    (ok : (flattenTree tree root context).result = .ok lines) : ∀ line ∈ lines, '\n' ∉ line := by
  obtain ⟨events, _, flattens, rfl, _⟩ := exists_flattens ok
  exact flattens.single trivial

end DocPress.Flatten

namespace DocPress.Placeholder
open Text Heading Catalog

theorem single_resizeBelow (token : Text) (lines : List Text) (index : Nat) {result : List Text}
    (single : ∀ line ∈ result, '\n' ∉ line) : ∀ line ∈ resizeBelow token lines index result, '\n' ∉ line := by
  fun_induction resizeBelow token lines index result with
  | case1 line underline rest index result resized ih =>
    apply ih
    unfold resized
    split
    · exact single_resizeAt single _
    · exact single
  | case2 => exact single

theorem single_replace {lines : List Text} (single : ∀ line ∈ lines, '\n' ∉ line) (name : Text) {value : Text}
    (plain : '\n' ∉ value) : ∀ line ∈ replace lines name value, '\n' ∉ line := by
  refine single_resizeBelow _ _ _ fun line member => ?_
  obtain ⟨original, among, rfl⟩ := List.mem_map.mp member
  exact fun inside => (mem_replaceAll inside).elim plain (single original among)

end DocPress.Placeholder

namespace DocPress.Contents
open Text Heading

theorem single_unnumbered {title : Text} (single : '\n' ∉ title) : ∀ line ∈ unnumbered title, '\n' ∉ line := by
  have command : '\n' ∉ "\\section*\x7b".toList ++ title ++ ['\x7d'] :=
    List.not_mem_append (List.not_mem_append (by decide) single) (by decide)
  intro line member
  simp only [unnumbered, Latex.island, List.map_cons, List.map_nil, List.mem_append, List.mem_singleton] at member
  rcases member with (first | rfl) | rfl
  · revert line
    decide
  · exact List.not_mem_append (by decide) command
  · exact List.not_mem_nil

theorem single_inlineFrom {titles before done lines : List Text} (finished : ∀ line ∈ done, '\n' ∉ line)
    (single : ∀ line ∈ lines, '\n' ∉ line) : ∀ line ∈ inlineFrom titles before done lines, '\n' ∉ line := by
  have trimmed : ∀ line : Text, '\n' ∉ line → '\n' ∉ trimEnd line := fun line outside =>
    not_mem_of_subset outside (trimEnd_prefix_self line).subset
  fun_induction inlineFrom titles before done lines with
  | case1 => exact finished
  | case2 before done line =>
    have own := trimmed line (single line (List.mem_singleton_self line))
    exact List.forall_mem_append.mpr ⟨finished, List.forall_mem_singleton.mpr own⟩
  | case3 before done line next rest listed kept ih =>
    obtain ⟨own, below⟩ := List.forall_mem_cons.mp single
    have title : '\n' ∉ trim line := not_mem_of_subset own (trim_sublist line).subset
    have above : ∀ line ∈ kept, '\n' ∉ line := by
      unfold kept
      split
      · exact fun line member => finished line (List.mem_of_mem_dropLast member)
      · exact finished
    exact ih (List.forall_mem_append.mpr ⟨above, single_unnumbered title⟩)
      fun line member => below line (List.mem_cons_of_mem _ member)
  | case4 before done line next rest _ ih =>
    obtain ⟨own, below⟩ := List.forall_mem_cons.mp single
    exact ih (List.forall_mem_append.mpr ⟨finished, List.forall_mem_singleton.mpr (trimmed line own)⟩) below

theorem single_inlineListed {lines : List Text} (single : ∀ line ∈ lines, '\n' ∉ line) (titles : List Text) :
    ∀ line ∈ inlineListed titles lines, '\n' ∉ line :=
  single_inlineFrom (by simp) single

end DocPress.Contents

namespace DocPress.Run
open Text

theorem single_substitute {values : List (Text × Text)} (plain : ∀ value ∈ values, '\n' ∉ value.2) {lines : List Text}
    (single : ∀ line ∈ lines, '\n' ∉ line) : ∀ line ∈ substitute values lines, '\n' ∉ line := by
  induction values generalizing lines with
  | nil => exact single
  | cons value values ih =>
    obtain ⟨first, below⟩ := List.forall_mem_cons.mp plain
    exact ih below (Placeholder.single_replace single value.1 first)

end DocPress.Run
