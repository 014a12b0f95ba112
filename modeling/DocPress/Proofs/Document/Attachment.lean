import DocPress.Proofs.Document.Labels
import DocPress.Proofs.Document.Positions
import Mathlib.Data.List.Basic

namespace DocPress.Document
open Text Markup Heading

def Unlabeled (lines : List Text) (i j : Nat) : Prop :=
  ∀ k line, i < k → k < j → lines[k]? = some line → anchor? line = none

def Block.IsCarrier : Block → Prop
  | .table .. | .figure .. => True
  | _ => False

structure FirstBelow (lines : List Text) (i : Nat) (earlier : List Source) (source : Source) : Prop where
  content : source.IsContent
  below : i < source.first
  earliest : ∀ other ∈ earlier, other.IsContent → other.first ≤ i
  unlabeled : Unlabeled lines i source.first

/-- The label on line `i` is where it belongs: with the first block below it, or on its own behind all blocks above it
where no block starts before the next label. -/
inductive Attached (lines : List Text) (i : Nat) (anchor : Text) (sources : List Source) : Prop where
  | carried {earlier source later} : sources = earlier ++ source :: later → FirstBelow lines i earlier source →
      source.block.IsCarrier → source.block.anchor? = some anchor → source.label = some i →
      Attached lines i anchor sources
  | followed {earlier source later} : sources = earlier ++ source :: labelSource anchor i :: later →
      FirstBelow lines i earlier source → ¬source.block.IsCarrier →
      (∀ other ∈ later, other.IsContent → i ≤ other.first) → Attached lines i anchor sources
  | alone {earlier later} : sources = earlier ++ labelSource anchor i :: later →
      (∀ other ∈ sources, other.IsContent → i < other.first → ¬Unlabeled lines i other.first) →
      (∀ other ∈ later, other.IsContent → i ≤ other.first) → Attached lines i anchor sources

/-! ## Reading off whether a label is where it belongs -/

section
variable {lines : List Text} {i : Nat} {anchor : Text} {earlier later : List Source} {source : Source}

theorem not_isCarrier_labelSource (line : Nat) : ¬(labelSource anchor line).block.IsCarrier :=
  id

theorem split_unique {before after : List Source} {other : Source}
    (unique : ∀ s ∈ earlier ++ later, s.label ≠ some i) (label : other.label = some i)
    (same : earlier ++ source :: later = before ++ other :: after) :
    earlier = before ∧ source = other ∧ later = after := by
  refine (List.append_cons_inj_of_notMem ?_ ?_).mp same
  · exact fun member => unique other (List.mem_append_left _ member) label
  · exact fun member => unique other (List.mem_append_right _ member) label

theorem attached_carried_iff (carrier : source.block.IsCarrier) (carries : source.block.anchor? = some anchor)
    (label : source.label = some i) (below : i < source.first) (unlabeled : Unlabeled lines i source.first)
    (content : source.IsContent) (unique : ∀ s ∈ earlier ++ later, s.label ≠ some i) :
    Attached lines i anchor (earlier ++ source :: later) ↔ ∀ other ∈ earlier, other.IsContent → other.first ≤ i := by
  constructor
  · intro attached
    cases attached with
    | carried same first _ _ label' =>
      obtain ⟨rfl, _, _⟩ := split_unique unique label' same
      exact first.earliest
    | @followed before other after same _ _ _ =>
      rw [List.append_cons before other] at same
      obtain ⟨_, rfl, _⟩ := split_unique unique rfl same
      exact absurd carrier (not_isCarrier_labelSource i)
    | alone same _ _ =>
      obtain ⟨_, rfl, _⟩ := split_unique unique rfl same
      exact absurd carrier (not_isCarrier_labelSource i)
  · exact fun earliest => .carried rfl ⟨content, below, earliest, unlabeled⟩ carrier carries label

theorem attached_followed_iff (carrier : ¬source.block.IsCarrier) (below : i < source.first)
    (unlabeled : Unlabeled lines i source.first) (content : source.IsContent)
    (unique : ∀ s ∈ earlier ++ source :: later, s.label ≠ some i)
    (after : ∀ other ∈ later, other.IsContent → i ≤ other.first) :
    Attached lines i anchor (earlier ++ source :: labelSource anchor i :: later) ↔
      ∀ other ∈ earlier, other.IsContent → other.first ≤ i := by
  rw [List.append_cons] at unique
  constructor
  · intro attached
    cases attached with
    | carried same first carries _ label' =>
      rw [List.append_cons] at same
      obtain ⟨_, rfl, _⟩ := split_unique unique label' same
      exact absurd carries (not_isCarrier_labelSource i)
    | followed same first _ _ =>
      rw [List.append_cons, List.append_cons _ _ (labelSource anchor i :: _)] at same
      obtain ⟨same, _, _⟩ := split_unique unique rfl same
      obtain ⟨rfl, _⟩ := List.append_inj' same rfl
      exact first.earliest
    | alone _ silent _ => exact absurd unlabeled (silent source (by simp) content below)
  · exact fun earliest => .followed rfl ⟨content, below, earliest, unlabeled⟩ carrier after

theorem attached_placed_iff (above : ∀ other ∈ earlier, other.first ≤ i)
    (unique : ∀ s ∈ earlier ++ later, s.label ≠ some i) :
    Attached lines i anchor (earlier ++ labelSource anchor i :: later) ↔
      ∀ other ∈ later, other.IsContent → i ≤ other.first ∧ (i < other.first → ¬Unlabeled lines i other.first) := by
  constructor
  · intro attached
    cases attached with
    | carried same _ carries _ label' =>
      obtain ⟨_, rfl, _⟩ := split_unique unique label' same
      exact absurd carries (not_isCarrier_labelSource i)
    | @followed before source after same first _ _ =>
      rw [List.append_cons before source] at same
      obtain ⟨rfl, _, _⟩ := split_unique unique rfl same
      exact absurd first.below (Nat.not_lt.mpr (above source (by simp)))
    | alone same silent after =>
      obtain ⟨_, _, rfl⟩ := split_unique unique rfl same
      exact fun other member content => ⟨after other member content, silent other (by simp [member]) content⟩
  · intro after
    refine .alone rfl ?_ fun other member content => (after other member content).1
    intro other member content below
    rcases List.mem_append.mp member with member | member
    · exact absurd below (Nat.not_lt.mpr (above other member))
    · rcases List.mem_cons.mp member with rfl | member
      · exact absurd content (not_isContent_labelSource _ _)
      · exact (after other member content).2 below

end

end DocPress.Document
