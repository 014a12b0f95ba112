import DocPress.Proofs.Flatten.Derivation
import DocPress.Proofs.Flatten.Piece
import DocPress.Proofs.Heading.Fitted
import DocPress.Proofs.Heading.Hierarchy

namespace DocPress.Flatten
open Text Markup Heading

/-- Lines whose headings all lie at depth `n` or deeper. -/
def Nested (n : Nat) (lines : List Text) : Prop :=
  ∀ line ∈ lines, ∀ marker, underlineMarker? line = some marker → n ≤ marker.depth

def PlainCaption (options : List Text) : Prop :=
  ∀ caption ∈ caption? options, underlineMarker? caption = none

instance : DecidablePred PlainCaption := fun options =>
  inferInstanceAs (Decidable (∀ caption ∈ caption? options, underlineMarker? caption = none))

variable {n : Nat}

theorem nested_nil : Nested n [] :=
  fun _ member => absurd member List.not_mem_nil

theorem Nested.append {first second : List Text} (above : Nested n first) (below : Nested n second) :
    Nested n (first ++ second) :=
  fun line member => (List.mem_append.mp member).elim (above line) (below line)

theorem Nested.plain {line : Text} {lines : List Text} (nested : Nested n lines) (plain : underlineMarker? line = none) :
    Nested n (line :: lines) := by
  refine List.forall_mem_cons.mpr ⟨fun marker found => ?_, nested⟩
  rw [plain] at found
  cases found

theorem Nested.underline {line : Text} {lines : List Text} {marker : Marker} (nested : Nested n lines)
    (found : underlineMarker? line = some marker) (deep : n ≤ marker.depth) : Nested n (line :: lines) := by
  refine List.forall_mem_cons.mpr ⟨fun other found' => ?_, nested⟩
  obtain rfl := Option.some.inj (found.symm.trans found')
  exact deep

theorem nested_normalize {lines normalized : List Text} {level : Nat} (ok : normalize lines level = .ok normalized) :
    Nested level normalized := by
  obtain ⟨fits, rfl⟩ := normalize_eq_ok_iff.mp ok
  intro line member marker found
  obtain ⟨original, among, rfl⟩ := List.mem_map.mp member
  cases own : underlineMarker? original with
  | none =>
    rw [normalizeLine_of_none own, underlineMarker?_trimEnd, own] at found
    cases found
  | some first =>
    have listed := mem_hierarchy_iff.mpr ⟨original, among, own⟩
    obtain ⟨moved, depth, -, underline⟩ := normalizeLine_of_some fits own listed
    obtain rfl := Option.some.inj (underline.symm.trans found)
    omega

/-! ## The pieces of a file -/

inductive Piece.Nested (n : Nat) : Piece → Prop where
  | underline {marker line} : underlineMarker? line = some marker → n ≤ marker.depth →
      Nested n (.underline marker line)
  | toctree {options entries} : PlainCaption options → Nested n (.toctree options entries)
  | inclusion {number line target} : Nested n (.inclusion number line target)
  | plain {line} : underlineMarker? line = none → Nested n (.plain line)

theorem nested_piecesFrom (number : Nat) (lines : List Text) (nested : Nested n lines)
    (plain : ∀ options entries, .toctree options entries ∈ piecesFrom number lines → PlainCaption options) :
    ∀ piece ∈ piecesFrom number lines, piece.Nested n := by
  induction number, lines using piecesFrom.induct with
  | case1 number => simp [piecesFrom]
  | case2 number line rest marker found ih =>
    obtain ⟨own, below⟩ := List.forall_mem_cons.mp nested
    rw [piecesFrom_underline found] at plain ⊢
    exact List.forall_mem_cons.mpr ⟨.underline found (own marker found),
      ih below fun _ _ member => plain _ _ (List.mem_cons_of_mem _ member)⟩
  | case3 number line rest found toctree options below entries ih =>
    rw [piecesFrom_toctree found toctree] at plain ⊢
    have later : below.dropWhile isFilled ⊆ rest := fun line member =>
      (List.dropWhile_suffix _).subset (List.mem_of_mem_drop ((List.dropWhile_suffix _).subset member))
    refine List.forall_mem_cons.mpr ⟨.toctree (plain _ _ List.mem_cons_self), ih (fun line member => ?_) ?_⟩
    · exact nested line (List.mem_cons_of_mem _ (later member))
    · exact fun _ _ member => plain _ _ (List.mem_cons_of_mem _ member)
  | case4 number line rest found toctree inclusion ih =>
    rw [piecesFrom_include found toctree inclusion] at plain ⊢
    exact List.forall_mem_cons.mpr ⟨.inclusion,
      ih (List.forall_mem_cons.mp nested).2 fun _ _ member => plain _ _ (List.mem_cons_of_mem _ member)⟩
  | case5 number line rest found toctree inclusion ih =>
    rw [piecesFrom_plain found toctree inclusion] at plain ⊢
    exact List.forall_mem_cons.mpr ⟨.plain found,
      ih (List.forall_mem_cons.mp nested).2 fun _ _ member => plain _ _ (List.mem_cons_of_mem _ member)⟩

/-! ## A run writes no heading above its level -/

def Task.Nested (n : Nat) : Task → Prop
  | .opening _ level | .listing _ level _ => n ≤ level
  | .body _ level pieces => n ≤ level ∧ ∀ piece ∈ pieces, piece.Nested n

theorem nested_body {tree : Tree} {language : Option Text} {file : Path} {level : Nat} {lines : List Text}
    (expanded : expandedLines? tree language file level = some lines) (deep : n ≤ level)
    (plain : ∀ toctree ∈ toctrees lines, PlainCaption toctree.1) : (Task.body file level (pieces lines)).Nested n := by
  obtain ⟨_, _, _, _, _, ok⟩ := expandedLines?_eq_some_iff.mp expanded
  refine ⟨deep, nested_piecesFrom 1 lines (fun line member marker found => ?_) fun options entries member => ?_⟩
  · exact deep.trans (nested_normalize ok line member marker found)
  · exact plain (options, entries) (mem_toctrees_iff.mpr member)

theorem nested_contentsEvents (context : Context) : Nested n (written (contentsEvents context)) := by
  have plain : ∀ line ∈ contentsIsland, underlineMarker? line = none := by decide
  refine forall_written_contentsEvents context fun line member marker found => ?_
  rw [plain line member] at found
  cases found

theorem nested_toctreeHead? {level below : Nat} {options : List Text} {head : List Event}
    (heads : toctreeHead? level options = some (head, below)) (deep : n ≤ level) (plain : PlainCaption options) :
    Nested n (written head) ∧ n ≤ below := by
  rcases toctreeHead?_cases heads with ⟨-, rfl, rfl⟩ | ⟨caption, marker, found, located, rfl, rfl⟩
  · exact ⟨nested_nil, deep⟩
  · obtain rfl := Marker.ofDepth?_eq_some_iff.mp located
    refine ⟨?_, deep.trans (Nat.le_succ _)⟩
    rw [written_captionEvents]
    refine Nested.plain (Nested.plain ?_ (plain caption found)) rfl
    cases kind : underlineMarker? (underlineFor caption marker) with
    | none => exact (nested_nil.plain rfl).plain kind
    | some other =>
      obtain ⟨rfl, -⟩ := underlineMarker?_underlineFor_iff.mp kind
      exact (nested_nil.plain rfl).underline kind deep

theorem Flattens.nested {tree : Tree} {limit : Nat} {task : Task} {context after : Context} {events : List Event}
    (flattens : Flattens tree limit task context events after)
    (plain : EveryToctree tree context.language (events.filterMap Event.visit?) fun options _ => PlainCaption options)
    (deep : task.Nested n) : Nested n (written events) := by
  induction flattens with
  | opening _ _ expanded body ih =>
    exact ih (plain.mono (List.subset_cons_self _ _)) (nested_body expanded deep (plain _ List.mem_cons_self _ expanded))
  | nil | noEntries => exact nested_nil
  | underline _ ih =>
    obtain ⟨_, pieces⟩ := deep
    obtain ⟨piece, below⟩ := List.forall_mem_cons.mp pieces
    cases piece with
    | underline found deeper => exact (ih plain ⟨deeper, below⟩).underline found deeper
  | plain _ ih =>
    obtain ⟨own, pieces⟩ := deep
    obtain ⟨piece, below⟩ := List.forall_mem_cons.mp pieces
    cases piece with
    | plain found => exact (ih plain ⟨own, below⟩).plain found
  | inclusion _ opening _ first second =>
    obtain ⟨own, pieces⟩ := deep
    rw [opening.language] at second
    have taken := first (plain.mono fun _ member => by simp [member]) own
    have below := second (plain.mono fun _ member => by simp [member]) ⟨own, (List.forall_mem_cons.mp pieces).2⟩
    rw [written_append]
    exact taken.append (below.plain rfl)
  | @toctree _ _ _ context _ _ _ _ _ _ _ _ _ heads listing _ first second =>
    obtain ⟨own, pieces⟩ := deep
    obtain ⟨piece, later⟩ := List.forall_mem_cons.mp pieces
    cases piece with
    | toctree caption =>
      obtain ⟨head, deeper⟩ := nested_toctreeHead? heads own caption
      rw [listing.language] at second
      have taken := first (plain.mono fun _ member => by simp [member]) deeper
      have below := second (plain.mono fun _ member => by simp [member]) ⟨own, later⟩
      simp only [written_append]
      exact (((nested_contentsEvents context).append head).append taken).append below
  | entry _ opening _ first second =>
    rw [opening.language] at second
    have taken := first (plain.mono fun _ member => by simp [member]) deep
    have below := second (plain.mono fun _ member => by simp [member]) deep
    rw [written_append]
    exact taken.append (below.plain rfl)

/-! ## A toctree with a caption -/

section
variable {tree : Tree} {limit : Nat} {file : Path} {level : Nat} {context : Context} {options entries : List Text}

theorem exists_entries {lines : List Text} (ok : (withContents file context
      (takeToctree tree (flattenWithin tree limit) file level options entries)).result = .ok lines) :
    ∃ head below events after, toctreeHead? level options = some (head, below) ∧
      Flattens tree limit (.listing file below entries) { context with tocInserted := true } events after ∧
      lines = written (contentsEvents context) ++ written head ++ written events ∧
      visits (withContents file context
        (takeToctree tree (flattenWithin tree limit) file level options entries)).notes = events.filterMap Event.visit? := by
  obtain ⟨head, below, events, heads, listing⟩ := exists_toctree (derived_flattenWithin tree limit) ok
  have shows := withContents_shows file (takeToctree_shows heads listing.shows)
  refine ⟨head, below, events, _, heads, listing, ?_, ?_⟩
  · rw [Except.ok.inj (ok.symm.trans shows.result), written_append, written_append, List.append_assoc]
  · rw [shows.entered, List.filterMap_append, List.filterMap_append, visits_contentsEvents, visits_toctreeHead? heads,
      List.nil_append, List.nil_append]

/-- The caption of a toctree is written as a title, over an underline of its level that is a heading if the caption is
long enough, and every heading in what its entries write lies deeper. -/
theorem toctree_headed {caption : Text} {lines : List Text} (captioned : caption? options = some caption)
    (ok : (withContents file context
      (takeToctree tree (flattenWithin tree limit) file level options entries)).result = .ok lines)
    (plain : EveryToctree tree context.language (visits (withContents file context
      (takeToctree tree (flattenWithin tree limit) file level options entries)).notes) fun options _ => PlainCaption options) :
    ∃ marker taken, marker.depth = level ∧
      (takeEntries tree (flattenWithin tree limit) file (level + 1) entries { context with tocInserted := true }).result =
        .ok taken ∧
      lines = (if context.tocInserted then [] else contentsIsland) ++ [[], caption, underlineFor caption marker, []] ++ taken ∧
      (underlineMarker? (underlineFor caption marker) = some marker ↔ 3 ≤ caption.length) ∧
      ∀ line ∈ taken, ∀ deeper, underlineMarker? line = some deeper → level < deeper.depth := by
  obtain ⟨head, below, events, after, heads, listing, rfl, entered⟩ := exists_entries ok
  rw [entered] at plain
  rcases toctreeHead?_cases heads with ⟨none, -⟩ | ⟨_, marker, found, located, rfl, rfl⟩
  · cases none.symm.trans captioned
  obtain rfl := Option.some.inj (found.symm.trans captioned)
  refine ⟨marker, written events, (Marker.ofDepth?_eq_some_iff.mp located).symm, listing.shows.result, ?_, ?_, ?_⟩
  · rw [written_contentsEvents, written_captionEvents]
  · rw [underlineMarker?_underlineFor_iff, trimEnd_caption captioned, and_iff_right rfl]
  · exact listing.nested plain (Nat.le_refl _)

theorem toctree_headed_handbook : ∃ marker taken, marker.depth = 1 ∧
    (takeEntries handbook (flattenWithin handbook 3) "index.rst".toList 2 ["   one".toList] { tocInserted := true }).result =
      .ok taken ∧
    underlineMarker? (underlineFor "Parts".toList marker) = some marker ∧
    ∀ line ∈ taken, ∀ deeper, underlineMarker? line = some deeper → 1 < deeper.depth := by
  have succeeds : (withContents "index.rst".toList {} (takeToctree handbook (flattenWithin handbook 3) "index.rst".toList 1
      ["   :caption: Parts".toList] ["   one".toList])).result.toOption.isSome = true := by decide +kernel
  obtain ⟨lines, found⟩ := Option.isSome_iff_exists.mp succeeds
  have captioned : caption? ["   :caption: Parts".toList] = some "Parts".toList := by decide +kernel
  obtain ⟨marker, taken, depth, result, -, headed, below⟩ :=
    toctree_headed captioned (toOption_eq_some_iff.mp found) (by decide +kernel)
  exact ⟨marker, taken, depth, result, headed.mpr (by decide), below⟩

theorem toctree_not_headed_short :
    ¬∀ (tree : Tree) (limit : Nat) (file : Path) (level : Nat) (context : Context) (options entries : List Text)
      (caption : Text) (lines : List Text), caption? options = some caption →
      (withContents file context
        (takeToctree tree (flattenWithin tree limit) file level options entries)).result = .ok lines →
      (EveryToctree tree context.language (visits (withContents file context
        (takeToctree tree (flattenWithin tree limit) file level options entries)).notes)
        fun options _ => PlainCaption options) →
      ∃ marker taken, marker.depth = level ∧
        lines = (if context.tocInserted then [] else contentsIsland) ++
          [[], caption, underlineFor caption marker, []] ++ taken ∧
        underlineMarker? (underlineFor caption marker) = some marker := by
  intro headed
  obtain ⟨marker, _, -, -, underlined⟩ := headed ⟨[], []⟩ 0 "index.rst".toList 0 {} ["   :caption: Hi".toList] []
    "Hi".toList (contentsIsland ++ [[], "Hi".toList, "##".toList, []]) (by decide +kernel) (by decide +kernel)
    (by decide +kernel)
  revert underlined
  cases marker <;> decide

end

end DocPress.Flatten
