import DocPress.Proofs.Catalog.Wrapped
import DocPress.Proofs.Flatten.Derivation
import DocPress.Proofs.Flatten.Piece
import DocPress.Proofs.Heading.Rendered

/-!
# Landmarks

The landmarks of a file are what steers a run in it: its headings and the directives that take other files in. Lines
with other underlines have the same landmarks, with the markers mapped (`rendered_landmarks`). Joining wrapped lines
keeps them too, where no join touches a directive (`joined_landmarks`); but it may join an option of a toctree to the
line above it, so that a caption is no longer seen.
-/

namespace DocPress.Flatten
open Text Markup Heading Catalog

/-! ## Landmarks of a file -/

inductive Landmark where
  | heading (marker : Marker)
  | inclusion (target : Option Text)
  | toctree (options entries : List Text)
deriving DecidableEq, Repr

def Piece.landmark? : Piece → Option Landmark
  | .underline marker _ => some (.heading marker)
  | .toctree options entries => some (.toctree options entries)
  | .inclusion _ _ target => some (.inclusion target)
  | .plain _ => none

def landmarks (lines : List Text) : List Landmark :=
  (pieces lines).filterMap Piece.landmark?

@[elab_as_elim]
theorem landmarks_induction {motive : List Text → Prop} (nil : motive [])
    (underline : ∀ line rest marker, underlineMarker? line = some marker → motive rest → motive (line :: rest))
    (toctree : ∀ line rest, underlineMarker? line = none → isDirective "toctree".toList line = true →
      motive (((rest.dropWhile isFilled).drop 1).dropWhile isFilled) → motive (line :: rest))
    (inclusion : ∀ line rest, underlineMarker? line = none → ¬isDirective "toctree".toList line = true →
      isDirective "include".toList line = true → motive rest → motive (line :: rest))
    (plain : ∀ line rest, underlineMarker? line = none → ¬isDirective "toctree".toList line = true →
      ¬isDirective "include".toList line = true → motive rest → motive (line :: rest))
    (lines : List Text) : motive lines := by
  induction 1, lines using piecesFrom.induct with
  | case1 => exact nil
  | case2 _ line rest marker found ih => exact underline line rest marker found ih
  | case3 _ line rest found directive _ _ _ ih => exact toctree line rest found directive ih
  | case4 _ line rest found other directive ih => exact inclusion line rest found other directive ih
  | case5 _ line rest found other other' ih => exact plain line rest found other other' ih

section
variable {line : Text} {rest : List Text}

theorem landmarks_piecesFrom (number : Nat) (lines : List Text) :
    (piecesFrom number lines).filterMap Piece.landmark? = landmarks lines := by
  suffices same : ∀ number number', (piecesFrom number lines).filterMap Piece.landmark? =
      (piecesFrom number' lines).filterMap Piece.landmark? from same number 1
  induction lines using landmarks_induction with
  | nil => simp [piecesFrom]
  | underline line rest marker found ih =>
    intro number number'
    rw [piecesFrom_underline found, piecesFrom_underline found, List.filterMap_cons, List.filterMap_cons, ih]
  | toctree line rest found toctree ih =>
    intro number number'
    rw [piecesFrom_toctree found toctree, piecesFrom_toctree found toctree, List.filterMap_cons, List.filterMap_cons, ih]
  | inclusion line rest found toctree inclusion ih =>
    intro number number'
    rw [piecesFrom_include found toctree inclusion, piecesFrom_include found toctree inclusion, List.filterMap_cons,
      List.filterMap_cons, ih (number + 1) (number' + 1)]
    rfl
  | plain line rest found toctree inclusion ih =>
    intro number number'
    rw [piecesFrom_plain found toctree inclusion, piecesFrom_plain found toctree inclusion, List.filterMap_cons,
      List.filterMap_cons, ih (number + 1) (number' + 1)]

theorem landmarks_nil : landmarks [] = [] := by
  simp [landmarks, pieces, piecesFrom]

theorem landmarks_underline {marker : Marker} (found : underlineMarker? line = some marker) :
    landmarks (line :: rest) = .heading marker :: landmarks rest := by
  rw [landmarks, pieces, piecesFrom_underline found, List.filterMap_cons, landmarks_piecesFrom]
  rfl

theorem landmarks_toctree (plain : underlineMarker? line = none) (toctree : isDirective "toctree".toList line = true) :
    landmarks (line :: rest) =
      .toctree (rest.takeWhile isFilled) (((rest.dropWhile isFilled).drop 1).takeWhile isFilled) ::
        landmarks (((rest.dropWhile isFilled).drop 1).dropWhile isFilled) := by
  rw [landmarks, pieces, piecesFrom_toctree plain toctree, List.filterMap_cons, landmarks_piecesFrom]
  rfl

theorem landmarks_include (plain : underlineMarker? line = none) (toctree : ¬isDirective "toctree".toList line = true)
    (inclusion : isDirective "include".toList line = true) :
    landmarks (line :: rest) = .inclusion (directiveArgument? "include".toList line) :: landmarks rest := by
  rw [landmarks, pieces, piecesFrom_include plain toctree inclusion, List.filterMap_cons, landmarks_piecesFrom]
  rfl

theorem landmarks_plain (plain : underlineMarker? line = none) (toctree : ¬isDirective "toctree".toList line = true)
    (inclusion : ¬isDirective "include".toList line = true) : landmarks (line :: rest) = landmarks rest := by
  rw [landmarks, pieces, piecesFrom_plain plain toctree inclusion, List.filterMap_cons, landmarks_piecesFrom]
  rfl

end

theorem mem_landmarks_iff {lines options entries : List Text} :
    .toctree options entries ∈ landmarks lines ↔ (options, entries) ∈ toctrees lines := by
  rw [mem_toctrees_iff, landmarks, List.mem_filterMap]
  constructor
  · rintro ⟨piece, member, equal⟩
    cases piece with
    | toctree options entries =>
      cases equal
      exact member
    | underline | inclusion | plain => cases equal
  · intro member
    exact ⟨_, member, rfl⟩

/-! ## Other underlines -/

inductive Landmark.Rendered (f : Marker → Marker) : Landmark → Landmark → Prop where
  | heading {marker} : Rendered f (.heading marker) (.heading (f marker))
  | inclusion {target} : Rendered f (.inclusion target) (.inclusion target)
  | toctree {options entries options' entries'} : caption? options' = caption? options →
      entries'.map trim = entries.map trim → Rendered f (.toctree options entries) (.toctree options' entries')

section
variable {f : Marker → Marker} {line shown : Text}

theorem isDirective_of_rendered (rendered : Heading.Rendered f line shown) (plain : underlineMarker? line = none)
    (name : Text) : isDirective name shown = isDirective name line := by
  rw [← isDirective_trimEnd, rendered.plain plain, isDirective_trimEnd]

theorem option?_of_rendered (rendered : Heading.Rendered f line shown) : option? shown = option? line := by
  cases found : underlineMarker? line with
  | none =>
    have read (t : Text) : option? t = option? (trimEnd t) := by rw [option?, option?, trim_trimEnd]
    rw [read, read line, rendered.plain found]
  | some marker => rw [option?_underline (rendered.marker.trans (congrArg _ found)), option?_underline found]

theorem directiveArgument?_of_rendered (rendered : Heading.Rendered f line shown)
    (plain : underlineMarker? line = none) (name : Text) :
    directiveArgument? name shown = directiveArgument? name line := by
  rw [← directiveArgument?_trimEnd, rendered.plain plain, directiveArgument?_trimEnd]

theorem forall₂_takeWhile {R : Text → Text → Prop} {p : Text → Bool} (same : ∀ a b, R a b → p b = p a)
    {lines others : List Text} (related : List.Forall₂ R lines others) :
    List.Forall₂ R (lines.takeWhile p) (others.takeWhile p) ∧ List.Forall₂ R (lines.dropWhile p) (others.dropWhile p) := by
  induction related with
  | nil => exact ⟨.nil, .nil⟩
  | @cons a b _ _ first below ih =>
    rw [List.takeWhile_cons, List.takeWhile_cons, List.dropWhile_cons, List.dropWhile_cons, same a b first]
    cases p a with
    | true => exact ⟨.cons first ih.1, ih.2⟩
    | false => exact ⟨.nil, .cons first below⟩

theorem map_eq_of_forall₂ {β : Type} {g : Text → β} {lines others : List Text}
    (same : List.Forall₂ (fun line other => g other = g line) lines others) : others.map g = lines.map g := by
  induction same with
  | nil => rfl
  | cons first _ ih => rw [List.map_cons, List.map_cons, first, ih]

theorem rendered_landmarks {lines others : List Text} (rendered : List.Forall₂ (Heading.Rendered f) lines others)
    (plain : ∀ options entries, .toctree options entries ∈ landmarks lines →
      ∀ entry ∈ entries, underlineMarker? entry = none) :
    List.Forall₂ (Landmark.Rendered f) (landmarks lines) (landmarks others) := by
  induction lines using landmarks_induction generalizing others with
  | nil =>
    cases rendered
    rw [landmarks_nil]
    exact .nil
  | underline line rest marker found ih =>
    obtain _ | ⟨line, below⟩ := rendered
    rw [landmarks_underline found] at plain ⊢
    rw [landmarks_underline (line.marker.trans (congrArg _ found))]
    exact .cons .heading (ih below fun _ _ member => plain _ _ (List.mem_cons_of_mem _ member))
  | toctree line rest found toctree ih =>
    obtain _ | @⟨_, other, _, others, line, below⟩ := rendered
    have unmarked : underlineMarker? other = none := by rw [line.marker, found, Option.map_none]
    have filled (a b) (rendered : Heading.Rendered f a b) : isFilled b = isFilled a := rendered.isFilled
    obtain ⟨options, beneath⟩ := forall₂_takeWhile filled below
    obtain ⟨entries, rest⟩ := forall₂_takeWhile filled (List.forall₂_drop 1 beneath)
    rw [landmarks_toctree found toctree] at plain ⊢
    rw [landmarks_toctree unmarked (by rw [isDirective_of_rendered line found, toctree])]
    refine .cons (.toctree ?_ ?_) (ih rest fun _ _ member => plain _ _ (List.mem_cons_of_mem _ member))
    · exact caption?_congr (map_eq_of_forall₂ (options.imp fun _ _ => option?_of_rendered))
    · refine map_eq_of_forall₂ (((List.forall₂_and_left _ _).mpr ⟨plain _ _ List.mem_cons_self, entries⟩).imp ?_)
      rintro entry shown ⟨unmarked, rendered⟩
      rw [← trim_trimEnd, rendered.plain unmarked, trim_trimEnd]
  | inclusion line rest found toctree inclusion ih =>
    obtain _ | @⟨_, other, _, others, line, below⟩ := rendered
    have unmarked : underlineMarker? other = none := by rw [line.marker, found, Option.map_none]
    have same := isDirective_of_rendered line found
    rw [landmarks_include found toctree inclusion] at plain ⊢
    rw [landmarks_include unmarked (by rwa [same]) (by rwa [same]), directiveArgument?_of_rendered line found]
    exact .cons .inclusion (ih below fun _ _ member => plain _ _ (List.mem_cons_of_mem _ member))
  | plain line rest found toctree inclusion ih =>
    obtain _ | @⟨_, other, _, others, line, below⟩ := rendered
    have unmarked : underlineMarker? other = none := by rw [line.marker, found, Option.map_none]
    have same := isDirective_of_rendered line found
    rw [landmarks_plain found toctree inclusion] at plain ⊢
    rw [landmarks_plain unmarked (by rwa [same]) (by rwa [same])]
    exact ih below plain

end

/-! ## Joined lines -/

def takingDirectives : List Text :=
  ["include".toList, "toctree".toList]

def isCaption (line : Text) : Bool :=
  (option? line).any fun option => option.1 = "caption".toList

/-- Joining two lines loses no directive, and makes no directive and no caption. -/
structure Harmless (previous line : Text) : Prop where
  below : ∀ name ∈ takingDirectives, isDirective name line = false
  above : isDirective "include".toList previous = false
  directive : ∀ name ∈ takingDirectives, isDirective name (merged previous line) = true →
    isDirective name previous = true
  caption : isCaption (merged previous line) = true → isCaption previous = true

instance : DecidableRel Harmless := fun previous line =>
  decidable_of_iff ((∀ name ∈ takingDirectives, isDirective name line = false) ∧
    isDirective "include".toList previous = false ∧
    (∀ name ∈ takingDirectives, isDirective name (merged previous line) = true → isDirective name previous = true) ∧
    (isCaption (merged previous line) = true → isCaption previous = true))
    ⟨fun ⟨below, above, directive, caption⟩ => ⟨below, above, directive, caption⟩,
      fun ⟨below, above, directive, caption⟩ => ⟨below, above, directive, caption⟩⟩

def JoinsHarmlessly (previous line : Text) : Prop :=
  continuesLine previous line = true → Harmless previous line

instance : DecidableRel JoinsHarmlessly := fun previous line =>
  inferInstanceAs (Decidable (continuesLine previous line = true → Harmless previous line))

inductive Landmark.Joined : Landmark → Landmark → Prop where
  | heading {marker} : Joined (.heading marker) (.heading marker)
  | inclusion {target} : Joined (.inclusion target) (.inclusion target)
  | toctree {options joined entries} : ((caption? joined).isSome = true → (caption? options).isSome = true) →
      Joined (.toctree options entries) (.toctree joined entries)

theorem isDirective_eq_true_iff {name line : Text} :
    isDirective name line = true ↔ ∃ rest, trim line = "..".toList ++ ' ' :: (name ++ "::".toList) ++ rest := by
  rw [isDirective, Option.any_eq_true]
  constructor
  · rintro ⟨after, found, starts⟩
    obtain ⟨rest, lead⟩ := Option.isSome_iff_exists.mp starts
    refine ⟨rest, ?_⟩
    rw [afterName?_eq_some found, afterLead?_eq_some_iff.mp lead]
    simp
  · rintro ⟨rest, shape⟩
    refine ⟨"::".toList ++ rest, Option.bind_eq_some_iff.mpr ⟨name ++ ("::".toList ++ rest), ?_, ?_⟩, ?_⟩
    · rw [afterLead?_eq_some_iff, shape]
      simp
    · rw [afterLead?_eq_some_iff]
    · rw [startsWith, afterLead?_eq_some_iff.mpr rfl, Option.isSome_some]

theorem isCaption_eq_true_iff {line : Text} :
    isCaption line = true ↔ ∃ value, trim line = ":caption:".toList ++ ' ' :: [] ++ value := by
  rw [isCaption, Option.any_eq_true]
  constructor
  · rintro ⟨⟨key, value⟩, found, caption⟩
    obtain rfl : key = "caption".toList := of_decide_eq_true caption
    exact ⟨value, option?_eq_some found⟩
  · rintro ⟨value, shape⟩
    refine ⟨("caption".toList, value), ?_, rfl⟩
    rw [option?, shape]
    rfl

theorem isSome_caption?_iff {options : List Text} :
    (caption? options).isSome = true ↔ ∃ line ∈ options, isCaption line = true := by
  constructor
  · intro some
    obtain ⟨caption, found⟩ := Option.isSome_iff_exists.mp some
    obtain ⟨line, member, option⟩ := caption?_eq_some found
    exact ⟨line, member, by rw [isCaption, option]; rfl⟩
  · rintro ⟨line, member, caption⟩
    obtain ⟨option, found, key⟩ := (Option.any_eq_true _ _).mp caption
    rw [caption?, optionValue?, Option.isSome_map, Option.isSome_iff_ne_none, ne_eq, List.getLast?_eq_none_iff]
    exact List.ne_nil_of_mem (List.mem_filter.mpr ⟨List.mem_filterMap.mpr ⟨line, member, found⟩, key⟩)

theorem isFilled_of_isDirective {name line : Text} (directive : isDirective name line = true) :
    isFilled line = true := by
  rw [isFilled, Bool.not_eq_true', ← Bool.not_eq_true]
  intro blank
  rw [← isDirective_trimEnd, trimEnd_eq_nil_iff.mpr blank, isDirective_nil] at directive
  cases directive

theorem isDirective_append {name line : Text} (directive : isDirective name line = true) (s : Text) :
    isDirective name (line ++ s) = true := by
  obtain ⟨rest, lead⟩ := isDirective_eq_true_iff.mp directive
  obtain ⟨blank, split, _⟩ := exists_blank_end (line.dropWhile isSpace)
  have start : line.dropWhile isSpace = "..".toList ++ ' ' :: (name ++ "::".toList) ++ (rest ++ blank) := by
    rw [split, ← List.append_assoc, ← lead]
    rfl
  have longer : (line ++ s).dropWhile isSpace = "..".toList ++ ' ' :: (name ++ [':']) ++ ':' :: (rest ++ blank ++ s) := by
    rw [List.dropWhile_append, start]
    simp
  refine isDirective_eq_true_iff.mpr ⟨trimEnd (rest ++ blank ++ s), ?_⟩
  rw [trim, stripWhile, longer]
  change trimEnd _ = _
  rw [trimEnd_append_cons rfl]
  simp

section
variable {above line next : Text}

theorem joinsHarmlessly_merged (continues : continuesLine above line = true) (harmless : Harmless above line)
    (joins : JoinsHarmlessly line next) : JoinsHarmlessly (merged above line) next := by
  intro goes
  have below : Harmless line next := joins (continuesLine_merged continues ▸ goes)
  have known := continuation goes
  -- what has been joined already holds a space, and so is no single word
  have apart : ∀ word, ' ' ∉ word → trim (merged above line) ≠ word := fun word outside same =>
    outside (same ▸ (continuation continues).space_mem_trim_merged)
  refine ⟨below.below, ?_, ?_, ?_⟩
  · rw [← Bool.not_eq_true]
    intro inclusion
    have directive := harmless.directive _ (by decide) inclusion
    rw [harmless.above] at directive
    cases directive
  · intro name among directive
    have single : ∀ name ∈ takingDirectives, ' ' ∉ name ++ "::".toList := by decide
    obtain ⟨rest, lead⟩ := isDirective_eq_true_iff.mp directive
    rcases known.lead_merged (by decide) (single name among) lead with word | more
    · exact absurd word (apart _ (by decide))
    · exact isDirective_eq_true_iff.mpr more
  · intro caption
    obtain ⟨value, lead⟩ := isCaption_eq_true_iff.mp caption
    rcases known.lead_merged (by decide) (by decide) lead with word | more
    · exact absurd word (apart _ (by decide))
    · exact isCaption_eq_true_iff.mpr more

theorem joins_merged {rest : List Text} (joins : (above :: line :: rest).IsChain JoinsHarmlessly)
    (continues : continuesLine above line = true) : (merged above line :: rest).IsChain JoinsHarmlessly := by
  obtain ⟨first, below⟩ := List.isChain_cons_cons.mp joins
  cases rest with
  | nil => exact .singleton _
  | cons next rest =>
    obtain ⟨second, below⟩ := List.isChain_cons_cons.mp below
    exact List.isChain_cons_cons.mpr ⟨joinsHarmlessly_merged continues (first continues) second, below⟩

/-! ### Captions -/

theorem exists_caption_of_mem {lines : List Text} (joins : lines.IsChain JoinsHarmlessly)
    (member : line ∈ joinWrapped lines) (caption : isCaption line = true) : ∃ line ∈ lines, isCaption line = true := by
  induction lines using joinWrapped_induction with
  | nil => cases member
  | single other => exact ⟨line, member, caption⟩
  | continued above next rest continues ih =>
    rw [joinWrapped_of_continues continues] at member
    obtain ⟨found, among, caption⟩ := ih (joins_merged joins continues) member
    rcases List.mem_cons.mp among with rfl | below
    · have harmless : Harmless above next := (List.isChain_cons_cons.mp joins).1 continues
      exact ⟨above, List.mem_cons_self, harmless.caption caption⟩
    · exact ⟨found, List.mem_cons_of_mem _ (List.mem_cons_of_mem _ below), caption⟩
  | apart above next rest apart ih =>
    rw [joinWrapped_of_not_continues apart] at member
    rcases List.mem_cons.mp member with rfl | below
    · exact ⟨line, List.mem_cons_self, caption⟩
    · obtain ⟨found, among, caption⟩ := ih (List.isChain_cons_cons.mp joins).2 below
      exact ⟨found, List.mem_cons_of_mem _ among, caption⟩

theorem exists_caption_of_mem_tail {rest : List Text} (joins : (above :: rest).IsChain JoinsHarmlessly)
    (member : line ∈ (joinWrapped (above :: rest)).tail) (caption : isCaption line = true) :
    ∃ line ∈ rest, isCaption line = true := by
  induction rest generalizing above with
  | nil => cases member
  | cons next rest ih =>
    cases continues : continuesLine above next with
    | true =>
      rw [joinWrapped_of_continues continues] at member
      obtain ⟨found, among, caption⟩ := ih (joins_merged joins continues) member
      exact ⟨found, List.mem_cons_of_mem _ among, caption⟩
    | false =>
      rw [joinWrapped_of_not_continues continues] at member
      exact exists_caption_of_mem (List.isChain_cons_cons.mp joins).2 member caption

/-! ### Landmarks -/

theorem landmarks_joinWrapped_toctree {rest : List Text} (joins : (line :: rest).IsChain JoinsHarmlessly)
    (plain : underlineMarker? line = none) (toctree : isDirective "toctree".toList line = true)
    (apart : (((rest.dropWhile isFilled).drop 1).takeWhile isFilled).IsChain fun a b => continuesLine a b = false) :
    ∃ options, ((caption? options).isSome = true → (caption? (rest.takeWhile isFilled)).isSome = true) ∧
      landmarks (joinWrapped (line :: rest)) =
        .toctree options (((rest.dropWhile isFilled).drop 1).takeWhile isFilled) ::
          landmarks (joinWrapped (((rest.dropWhile isFilled).drop 1).dropWhile isFilled)) := by
  have filled := isFilled_of_isDirective toctree
  obtain ⟨s, tail, shape, filled', plain'⟩ := exists_joinWrapped_cons filled plain rest
  have options : (line ++ s) :: tail.takeWhile isFilled = joinWrapped (line :: rest.takeWhile isFilled) := by
    rw [← List.takeWhile_cons_of_pos filled', ← shape, takeWhile_joinWrapped, List.takeWhile_cons_of_pos filled]
  have below : (tail.dropWhile isFilled).drop 1 = joinWrapped ((rest.dropWhile isFilled).drop 1) := by
    rw [← List.dropWhile_cons_of_pos filled', ← shape, drop_dropWhile_joinWrapped, List.dropWhile_cons_of_pos filled]
  refine ⟨tail.takeWhile isFilled, fun captioned => ?_, ?_⟩
  · obtain ⟨found, among, caption⟩ := isSome_caption?_iff.mp captioned
    refine isSome_caption?_iff.mpr (@exists_caption_of_mem_tail line _ _ ?_ ?_ caption)
    · exact joins.prefix ((List.prefix_cons_inj line).mpr (List.takeWhile_prefix _))
    · rwa [← options, List.tail_cons]
  · rw [shape, landmarks_toctree plain' (isDirective_append toctree s), below, takeWhile_joinWrapped,
      dropWhile_joinWrapped, joinWrapped_eq_self apart]

theorem landmarks_merged {rest : List Text} (joins : (above :: line :: rest).IsChain JoinsHarmlessly)
    (continues : continuesLine above line = true) (plain : underlineMarker? above = none)
    (toctree : ¬isDirective "toctree".toList above = true) (inclusion : ¬isDirective "include".toList above = true) :
    landmarks (merged above line :: rest) = landmarks (above :: line :: rest) := by
  have known := continuation continues
  have harmless : Harmless above line := (List.isChain_cons_cons.mp joins).1 continues
  have toctrees : "toctree".toList ∈ takingDirectives := by decide
  have inclusions : "include".toList ∈ takingDirectives := by decide
  rw [landmarks_plain plain toctree inclusion,
    landmarks_plain known.below (Bool.eq_false_iff.mp (harmless.below _ toctrees))
      (Bool.eq_false_iff.mp (harmless.below _ inclusions)),
    landmarks_plain known.underlineMarker?_merged (mt (harmless.directive _ toctrees) toctree)
      (mt (harmless.directive _ inclusions) inclusion)]

theorem joined_landmarks {lines : List Text} (joins : lines.IsChain JoinsHarmlessly)
    (apart : ∀ options entries, .toctree options entries ∈ landmarks lines →
      entries.IsChain fun a b => continuesLine a b = false) :
    List.Forall₂ Landmark.Joined (landmarks lines) (landmarks (joinWrapped lines)) := by
  -- two joined lines make a list that is shorter, but no part of the one before
  induction size : lines.length using Nat.strong_induction_on generalizing lines with
  | _ n ih =>
    subst size
    cases lines with
    | nil =>
      rw [joinWrapped, landmarks_nil]
      exact .nil
    | cons line rest =>
      have shorter : rest.length < (line :: rest).length := Nat.lt_succ_self _
      cases found : underlineMarker? line with
      | some marker =>
        have alone : joinWrapped (line :: rest) = line :: joinWrapped rest := joinWrapped_of_apart fun next _ =>
          Bool.eq_false_iff.mpr fun continues => by simp [(continuation continues).above] at found
        rw [landmarks_underline found] at apart ⊢
        rw [alone, landmarks_underline found]
        exact .cons .heading (ih _ shorter joins.tail (fun _ _ member => apart _ _ (List.mem_cons_of_mem _ member)) rfl)
      | none =>
        by_cases toctree : isDirective "toctree".toList line = true
        · rw [landmarks_toctree found toctree] at apart ⊢
          obtain ⟨options, captions, joined⟩ :=
            landmarks_joinWrapped_toctree joins found toctree (apart _ _ List.mem_cons_self)
          have below : ((rest.dropWhile isFilled).drop 1).dropWhile isFilled <:+ rest :=
            (List.dropWhile_suffix _).trans ((List.drop_suffix _ _).trans (List.dropWhile_suffix _))
          rw [joined]
          exact .cons (.toctree captions) (ih _ (Nat.lt_succ_of_le below.length_le) (joins.tail.suffix below)
            (fun _ _ member => apart _ _ (List.mem_cons_of_mem _ member)) rfl)
        · by_cases inclusion : isDirective "include".toList line = true
          · have alone : joinWrapped (line :: rest) = line :: joinWrapped rest := joinWrapped_of_apart fun next member =>
              Bool.eq_false_iff.mpr fun continues =>
                absurd inclusion (Bool.eq_false_iff.mp ((List.isChain_cons.mp joins).1 next member continues).above)
            rw [landmarks_include found toctree inclusion] at apart ⊢
            rw [alone, landmarks_include found toctree inclusion]
            exact .cons .inclusion
              (ih _ shorter joins.tail (fun _ _ member => apart _ _ (List.mem_cons_of_mem _ member)) rfl)
          · cases rest with
            | nil =>
              rw [joinWrapped, joinFrom, landmarks_plain found toctree inclusion, landmarks_nil]
              exact .nil
            | cons next rest =>
              cases continues : continuesLine line next with
              | true =>
                have same := landmarks_merged joins continues found toctree inclusion
                rw [joinWrapped_of_continues continues]
                rw [← same] at apart ⊢
                exact ih _ (Nat.lt_succ_self _) (joins_merged joins continues) apart rfl
              | false =>
                rw [landmarks_plain found toctree inclusion] at apart ⊢
                rw [joinWrapped_of_not_continues continues, landmarks_plain found toctree inclusion]
                exact ih _ shorter joins.tail apart rfl

end

end DocPress.Flatten
