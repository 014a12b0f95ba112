import DocPress.Heading
import DocPress.Proofs.Text.Trim
import Mathlib.Data.List.Basic

namespace DocPress.Heading
open Text

namespace Marker

theorem depth_lt (marker : Marker) : marker.depth < all.length := by
  cases marker <;> decide

theorem depth_injective : Function.Injective depth := by
  intro first second equal
  cases first <;> cases second <;> first | rfl | cases equal

theorem exists_ofDepth? {n : Nat} (fits : n < all.length) : ∃ marker, ofDepth? n = some marker :=
  ⟨all[n], List.getElem?_eq_getElem fits⟩

theorem isSpace_toChar (marker : Marker) : isSpace marker.toChar = false := by
  cases marker <;> rfl

end Marker

@[simp]
theorem trimEnd_replicate (n : Nat) (marker : Marker) :
    trimEnd (List.replicate n marker.toChar) = List.replicate n marker.toChar := by
  rw [trimEnd_eq_self_iff]
  intro c last
  rw [List.eq_of_mem_replicate (List.mem_of_getLast? last)]
  exact marker.isSpace_toChar

@[simp]
theorem underlineMarker?_trimEnd (line : Text) : underlineMarker? (trimEnd line) = underlineMarker? line := by
  rw [underlineMarker?, trimEnd_trimEnd, underlineMarker?]

theorem underlineMarker?_eq_some_iff {line : Text} {marker : Marker} :
    underlineMarker? line = some marker ↔ ∃ n, 3 ≤ n ∧ trimEnd line = List.replicate n marker.toChar := by
  rw [underlineMarker?]
  cases visible : trimEnd line with
  | nil => simp [eq_comm (a := []), List.replicate_eq_nil_iff]
  | cons first rest =>
    simp only [Option.ite_none_right_eq_some, Bool.and_eq_true, decide_eq_true_eq, List.all_eq_true, beq_iff_eq,
      Marker.ofChar?_eq_some_iff]
    constructor
    · rintro ⟨⟨long, same⟩, rfl⟩
      refine ⟨rest.length + 1, by omega, ?_⟩
      rw [List.replicate_succ, List.eq_replicate_of_mem same, List.length_replicate]
    · rintro ⟨n, long, equal⟩
      obtain ⟨k, rfl⟩ : ∃ k, n = k + 1 := ⟨n - 1, by omega⟩
      rw [List.replicate_succ] at equal
      obtain ⟨rfl, rfl⟩ := List.cons.inj equal
      exact ⟨⟨by rw [List.length_replicate]; omega, fun c member => List.eq_of_mem_replicate member⟩, rfl⟩

theorem underlineMarker?_replicate {n : Nat} (marker : Marker) (long : 3 ≤ n) :
    underlineMarker? (List.replicate n marker.toChar) = some marker :=
  underlineMarker?_eq_some_iff.mpr ⟨n, long, trimEnd_replicate n marker⟩

theorem underlineMarker?_replicate_short {n : Nat} (marker : Marker) (short : n < 3) :
    underlineMarker? (List.replicate n marker.toChar) = none := by
  rw [Option.eq_none_iff_forall_ne_some]
  intro other found
  obtain ⟨k, long, equal⟩ := underlineMarker?_eq_some_iff.mp found
  rw [trimEnd_replicate] at equal
  have := congrArg List.length equal
  simp only [List.length_replicate] at this
  omega

theorem eq_replicate_of_underline {line : Text} {marker : Marker} (trimmed : trimEnd line = line)
    (found : underlineMarker? line = some marker) : line = List.replicate line.length marker.toChar := by
  obtain ⟨n, _, equal⟩ := underlineMarker?_eq_some_iff.mp found
  rw [trimmed] at equal
  rw [equal, List.length_replicate]

theorem underlineMarker?_eq_none_of_blank {line : Text} (blank : isBlank line = true) :
    underlineMarker? line = none := by
  rw [underlineMarker?, trimEnd_eq_nil_iff.mpr blank]

theorem not_mem_of_underline {line : Text} {marker : Marker} (found : underlineMarker? line = some marker) {c : Char}
    (visible : isSpace c = false) (other : c ≠ marker.toChar) : c ∉ line := by
  intro member
  obtain ⟨n, _, equal⟩ := underlineMarker?_eq_some_iff.mp found
  obtain ⟨gap, split, blank⟩ := exists_blank_end line
  rw [split, equal, List.mem_append] at member
  rcases member with among | behind
  · exact other (List.eq_of_mem_replicate among)
  · rw [List.all_eq_true.mp blank c behind] at visible
    cases visible

theorem isUnderline_eq_false {p : Text → Bool} {line : Text} (holds : p line = true)
    (never : ∀ (marker : Marker) rest, p (marker.toChar :: marker.toChar :: rest) = false) : isUnderline line = false := by
  rw [Bool.eq_false_iff]
  intro underlines
  obtain ⟨marker, found⟩ := Option.isSome_iff_exists.mp underlines
  obtain ⟨n, long, visible⟩ := underlineMarker?_eq_some_iff.mp found
  obtain ⟨more, whole⟩ := trimEnd_prefix_self line
  obtain ⟨k, rfl⟩ : ∃ k, n = k + 2 := ⟨n - 2, by omega⟩
  rw [visible, List.replicate_succ, List.replicate_succ] at whole
  rw [← whole, List.cons_append, List.cons_append, never] at holds
  cases holds

end DocPress.Heading
