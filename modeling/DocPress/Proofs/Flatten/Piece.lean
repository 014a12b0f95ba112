import DocPress.Flatten.Basic
import DocPress.Proofs.Heading.Underline

namespace DocPress.Flatten
open Text Markup Heading

/-! ## Directives, options and captions -/

@[simp]
theorem isDirective_trimEnd (name line : Text) : isDirective name (trimEnd line) = isDirective name line := by
  simp [isDirective, afterName?]

@[simp]
theorem directiveArgument?_trimEnd (name line : Text) :
    directiveArgument? name (trimEnd line) = directiveArgument? name line := by
  rw [directiveArgument?, directiveArgument?, afterName?, afterName?, trim_trimEnd]

theorem isDirective_nil (name : Text) : isDirective name [] = false := by
  rfl

theorem afterName?_eq_some {name line rest : Text} (found : afterName? name line = some rest) :
    trim line = ".. ".toList ++ name ++ rest := by
  obtain ⟨middle, lead, after⟩ := Option.bind_eq_some_iff.mp found
  rw [afterLead?_eq_some_iff.mp lead, afterLead?_eq_some_iff.mp after, List.append_assoc]

theorem option?_eq_some {line key value : Text} (found : option? line = some (key, value)) :
    trim line = ':' :: key ++ ": ".toList ++ value := by
  obtain ⟨cut, _⟩ := Option.filter_eq_some_iff.mp found
  obtain ⟨rest, lead, parts⟩ := Option.bind_eq_some_iff.mp cut
  rw [afterLead?_eq_some_iff.mp lead, cut?_eq_some parts]
  simp

theorem trim_underline {line : Text} {marker : Marker} (found : underlineMarker? line = some marker) :
    trim line = trimEnd line := by
  obtain ⟨n, long, visible⟩ := underlineMarker?_eq_some_iff.mp found
  obtain ⟨k, rfl⟩ : ∃ k, n = k + 1 := ⟨n - 1, by omega⟩
  rw [← trim_trimEnd, visible, trim, stripWhile, List.replicate_succ,
    List.dropWhile_cons_of_neg (by simp [marker.isSpace_toChar]), ← List.replicate_succ]
  exact trimEnd_replicate _ marker

theorem head?_trim_underline {line : Text} {marker : Marker} (found : underlineMarker? line = some marker) :
    (trim line).head? = some marker.toChar := by
  obtain ⟨n, long, visible⟩ := underlineMarker?_eq_some_iff.mp found
  rw [trim_underline found, visible, List.head?_replicate, if_neg (by omega)]

theorem option?_underline {line : Text} {marker : Marker} (found : underlineMarker? line = some marker) :
    option? line = none := by
  rw [Option.eq_none_iff_forall_ne_some]
  rintro ⟨key, value⟩ option
  have head := head?_trim_underline found
  rw [option?_eq_some option] at head
  cases marker <;> cases head

theorem dot_mem_of_isDirective {name line : Text} (directive : isDirective name line = true) : '.' ∈ line := by
  obtain ⟨rest, after, _⟩ := (Option.any_eq_true _ _).mp directive
  refine (trim_sublist line).subset ?_
  rw [afterName?_eq_some after]
  exact List.mem_cons_self

theorem isDirective_underline {line : Text} {marker : Marker} (found : underlineMarker? line = some marker)
    (name : Text) : isDirective name line = false := by
  rw [Bool.eq_false_iff]
  intro directive
  exact not_mem_of_underline found (by decide) (by cases marker <;> decide) (dot_mem_of_isDirective directive)

theorem underlineMarker?_of_isDirective {name line : Text} (directive : isDirective name line = true) :
    underlineMarker? line = none := by
  rw [Option.eq_none_iff_forall_ne_some]
  intro marker found
  rw [isDirective_underline found] at directive
  cases directive

theorem isDirective_underlineFor (name title : Text) (marker : Marker) :
    isDirective name (underlineFor title marker) = false := by
  rw [Bool.eq_false_iff]
  intro directive
  have dot := List.eq_of_mem_replicate (dot_mem_of_isDirective directive)
  cases marker <;> cases dot

theorem optionValue?_eq_some {key value : Text} {lines : List Text} (found : optionValue? key lines = some value) :
    ∃ line ∈ lines, option? line = some (key, value) := by
  obtain ⟨option, last, rfl⟩ := Option.map_eq_some_iff.mp found
  obtain ⟨member, own⟩ := List.mem_filter.mp (List.mem_of_getLast? last)
  obtain ⟨line, among, read⟩ := List.mem_filterMap.mp member
  refine ⟨line, among, ?_⟩
  rw [read, ← of_decide_eq_true own]

theorem optionValue?_subset {key value : Text} {lines : List Text} (found : optionValue? key lines = some value) :
    ∃ line ∈ lines, value ⊆ line := by
  obtain ⟨line, member, option⟩ := optionValue?_eq_some found
  refine ⟨line, member, fun c among => (trim_sublist line).subset ?_⟩
  rw [option?_eq_some option]
  exact List.mem_append_right _ among

theorem directiveArgument?_subset {name line argument : Text} (found : directiveArgument? name line = some argument) :
    argument ⊆ line := by
  obtain ⟨rest, directive, after⟩ := Option.bind_eq_some_iff.mp (Option.filter_eq_some_iff.mp found).1
  refine fun c among => (trim_sublist line).subset ?_
  rw [afterName?_eq_some directive, afterLead?_eq_some_iff.mp after]
  exact List.mem_append_right _ (List.mem_append_right _ among)

theorem caption?_eq_some {options : List Text} {caption : Text} (found : caption? options = some caption) :
    ∃ line ∈ options, option? line = some ("caption".toList, caption) :=
  optionValue?_eq_some found

theorem trimEnd_caption {options : List Text} {caption : Text} (found : caption? options = some caption) :
    trimEnd caption = caption := by
  obtain ⟨line, _, option⟩ := caption?_eq_some found
  refine trimEnd_of_suffix (trimEnd_trim line) ?_
  rw [option?_eq_some option]
  exact List.suffix_append _ _

theorem caption_subset {options : List Text} {caption : Text} (found : caption? options = some caption) :
    ∃ line ∈ options, caption ⊆ line :=
  optionValue?_subset found

theorem caption?_congr {options shifted : List Text} (same : options.map option? = shifted.map option?) :
    caption? options = caption? shifted := by
  have options : options.filterMap option? = shifted.filterMap option? := by
    simpa [List.filterMap_map] using congrArg (List.filterMap id) same
  rw [caption?, caption?, optionValue?, optionValue?, options]

/-! ## Cutting a file into pieces -/

section
variable {line : Text}

theorem piecesFrom_underline {marker : Marker} (found : underlineMarker? line = some marker) (number : Nat)
    (rest : List Text) : piecesFrom number (line :: rest) = .underline marker line :: piecesFrom (number + 1) rest := by
  rw [piecesFrom, found]

theorem piecesFrom_toctree (plain : underlineMarker? line = none)
    (toctree : isDirective "toctree".toList line = true) (number : Nat) (rest : List Text) :
    piecesFrom number (line :: rest) =
      .toctree (rest.takeWhile isFilled) (((rest.dropWhile isFilled).drop 1).takeWhile isFilled) ::
        piecesFrom (number + (rest.takeWhile isFilled).length + 2 +
          (((rest.dropWhile isFilled).drop 1).takeWhile isFilled).length)
          (((rest.dropWhile isFilled).drop 1).dropWhile isFilled) := by
  rw [piecesFrom, plain]
  simp only [toctree, if_true]

theorem piecesFrom_include (plain : underlineMarker? line = none)
    (toctree : ¬isDirective "toctree".toList line = true) (inclusion : isDirective "include".toList line = true)
    (number : Nat) (rest : List Text) : piecesFrom number (line :: rest) =
      .inclusion number line (directiveArgument? "include".toList line) :: piecesFrom (number + 1) rest := by
  rw [piecesFrom, plain]
  simp only [toctree, inclusion, if_true, Bool.false_eq_true, if_false]

theorem piecesFrom_plain (plain : underlineMarker? line = none)
    (toctree : ¬isDirective "toctree".toList line = true) (inclusion : ¬isDirective "include".toList line = true)
    (number : Nat) (rest : List Text) :
    piecesFrom number (line :: rest) = .plain line :: piecesFrom (number + 1) rest := by
  rw [piecesFrom, plain]
  simp only [toctree, inclusion, Bool.false_eq_true, if_false]

end

end DocPress.Flatten
