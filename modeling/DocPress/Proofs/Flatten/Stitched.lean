import DocPress.Proofs.Catalog.Localize
import DocPress.Proofs.Flatten.Derivation
import DocPress.Proofs.Flatten.Piece
import DocPress.Proofs.Heading.Hierarchy

namespace DocPress.Flatten
open Text Markup Heading

/-! ## Lines and documents that flattening leaves as they are -/

structure Settled (line : Text) : Prop where
  trimmed : trimEnd line = line
  single : '\n' ∉ line
  toctree : isDirective "toctree".toList line = false
  inclusion : isDirective "include".toList line = false

/-- Settled lines whose headings skip no level, where the depths below `n` have been met before them. -/
structure Stitched (n : Nat) (lines : List Text) : Prop where
  settled : ∀ line ∈ lines, Settled line
  unskipped : Unskipped n (depths lines)

theorem settled_nil : Settled [] where
  trimmed := rfl
  single := List.not_mem_nil
  toctree := isDirective_nil _
  inclusion := isDirective_nil _

theorem settled_underline {line : Text} {marker : Marker} (trimmed : trimEnd line = line) (single : '\n' ∉ line)
    (found : underlineMarker? line = some marker) : Settled line where
  trimmed := trimmed
  single := single
  toctree := isDirective_underline found _
  inclusion := isDirective_underline found _

variable {n : Nat}

theorem stitched_nil : Stitched n [] where
  settled := fun _ member => absurd member List.not_mem_nil
  unskipped := trivial

theorem Stitched.append {first second : List Text} (above : Stitched n first)
    (below : Stitched (reached n (depths first)) second) : Stitched n (first ++ second) where
  settled line member := (List.mem_append.mp member).elim (above.settled line) (below.settled line)
  unskipped := by
    rw [depths_append]
    exact unskipped_append.mpr ⟨above.unskipped, below.unskipped⟩

theorem Stitched.plain {line : Text} {lines : List Text} (stitched : Stitched n lines)
    (plain : underlineMarker? line = none) (settled : Settled line) : Stitched n (line :: lines) where
  settled := List.forall_mem_cons.mpr ⟨settled, stitched.settled⟩
  unskipped := by
    rw [depths_cons_of_none plain]
    exact stitched.unskipped

theorem Stitched.underline {line : Text} {lines : List Text} {marker : Marker}
    (stitched : Stitched (max n (marker.depth + 1)) lines) (found : underlineMarker? line = some marker)
    (met : marker.depth ≤ n) (settled : Settled line) : Stitched n (line :: lines) where
  settled := List.forall_mem_cons.mpr ⟨settled, stitched.settled⟩
  unskipped := by
    rw [depths_cons_of_some found]
    exact ⟨met, stitched.unskipped⟩

/-! ## The pieces of a file -/

/-- A toctree whose lines hold no underline, with a caption that makes a heading and nothing else. -/
structure TidyToctree (options entries : List Text) : Prop where
  caption : ∀ caption ∈ caption? options, 3 ≤ caption.length ∧ underlineMarker? caption = none ∧
    isDirective "toctree".toList caption = false ∧ isDirective "include".toList caption = false
  options : ∀ line ∈ options, underlineMarker? line = none
  entries : ∀ line ∈ entries, underlineMarker? line = none

instance : DecidableRel TidyToctree := fun options entries =>
  decidable_of_iff ((∀ caption ∈ caption? options, 3 ≤ caption.length ∧ underlineMarker? caption = none ∧
      isDirective "toctree".toList caption = false ∧ isDirective "include".toList caption = false) ∧
    (∀ line ∈ options, underlineMarker? line = none) ∧ ∀ line ∈ entries, underlineMarker? line = none)
    ⟨fun tidy => ⟨tidy.1, tidy.2.1, tidy.2.2⟩, fun tidy => ⟨tidy.1, tidy.2, tidy.3⟩⟩

inductive Piece.Fit : Piece → Prop where
  | underline {marker line} : underlineMarker? line = some marker → Settled line → Fit (.underline marker line)
  | toctree {options entries} : TidyToctree options entries → (∀ line ∈ options, '\n' ∉ line) →
      Fit (.toctree options entries)
  | inclusion {number line target} : Fit (.inclusion number line target)
  | plain {line} : underlineMarker? line = none → Settled line → Fit (.plain line)

def Piece.depth? : Piece → Option Nat
  | .underline marker _ => some marker.depth
  | _ => none

theorem fit_piecesFrom (number : Nat) (lines : List Text) (trimmed : ∀ line ∈ lines, trimEnd line = line)
    (single : ∀ line ∈ lines, '\n' ∉ line)
    (tidy : ∀ options entries, .toctree options entries ∈ piecesFrom number lines → TidyToctree options entries) :
    ∀ piece ∈ piecesFrom number lines, piece.Fit := by
  induction number, lines using piecesFrom.induct with
  | case1 number => simp [piecesFrom]
  | case2 number line rest marker found ih =>
    obtain ⟨short, trimmed⟩ := List.forall_mem_cons.mp trimmed
    obtain ⟨one, single⟩ := List.forall_mem_cons.mp single
    rw [piecesFrom_underline found] at tidy ⊢
    exact List.forall_mem_cons.mpr ⟨.underline found (settled_underline short one found),
      ih trimmed single fun _ _ member => tidy _ _ (List.mem_cons_of_mem _ member)⟩
  | case3 number line rest found toctree options below entries ih =>
    obtain ⟨_, trimmed⟩ := List.forall_mem_cons.mp trimmed
    obtain ⟨_, single⟩ := List.forall_mem_cons.mp single
    rw [piecesFrom_toctree found toctree] at tidy ⊢
    have later : below.dropWhile isFilled ⊆ rest := fun line member =>
      (List.dropWhile_suffix _).subset (List.mem_of_mem_drop ((List.dropWhile_suffix _).subset member))
    refine List.forall_mem_cons.mpr ⟨.toctree (tidy _ _ List.mem_cons_self) ?_, ?_⟩
    · exact fun line member => single line ((List.takeWhile_prefix _).subset member)
    · exact ih (fun line member => trimmed line (later member)) (fun line member => single line (later member))
        fun _ _ member => tidy _ _ (List.mem_cons_of_mem _ member)
  | case4 number line rest found toctree inclusion ih =>
    obtain ⟨_, trimmed⟩ := List.forall_mem_cons.mp trimmed
    obtain ⟨_, single⟩ := List.forall_mem_cons.mp single
    rw [piecesFrom_include found toctree inclusion] at tidy ⊢
    exact List.forall_mem_cons.mpr ⟨.inclusion,
      ih trimmed single fun _ _ member => tidy _ _ (List.mem_cons_of_mem _ member)⟩
  | case5 number line rest found toctree inclusion ih =>
    obtain ⟨short, trimmed⟩ := List.forall_mem_cons.mp trimmed
    obtain ⟨one, single⟩ := List.forall_mem_cons.mp single
    rw [piecesFrom_plain found toctree inclusion] at tidy ⊢
    exact List.forall_mem_cons.mpr ⟨.plain found ⟨short, one, by simpa using toctree, by simpa using inclusion⟩,
      ih trimmed single fun _ _ member => tidy _ _ (List.mem_cons_of_mem _ member)⟩

theorem depths_piecesFrom (number : Nat) (lines : List Text)
    (tidy : ∀ options entries, .toctree options entries ∈ piecesFrom number lines → TidyToctree options entries) :
    (piecesFrom number lines).filterMap Piece.depth? = depths lines := by
  induction number, lines using piecesFrom.induct with
  | case1 number => simp [piecesFrom, depths]
  | case2 number line rest marker found ih =>
    rw [piecesFrom_underline found] at tidy ⊢
    rw [depths_cons_of_some found, List.filterMap_cons_some (f := Piece.depth?) (b := marker.depth) rfl,
      ih fun _ _ member => tidy _ _ (List.mem_cons_of_mem _ member)]
  | case3 number line rest found toctree options below entries ih =>
    rw [piecesFrom_toctree found toctree] at tidy ⊢
    have own := tidy _ _ List.mem_cons_self
    rw [depths_cons_of_none found, List.filterMap_cons_none rfl,
      ih fun _ _ member => tidy _ _ (List.mem_cons_of_mem _ member)]
    rw [depths_dropWhile own.entries, depths_drop_dropWhile, depths_dropWhile own.options]
  | case4 number line rest found toctree inclusion ih =>
    rw [piecesFrom_include found toctree inclusion] at tidy ⊢
    rw [depths_cons_of_none found, List.filterMap_cons_none rfl,
      ih fun _ _ member => tidy _ _ (List.mem_cons_of_mem _ member)]
  | case5 number line rest found toctree inclusion ih =>
    rw [piecesFrom_plain found toctree inclusion] at tidy ⊢
    rw [depths_cons_of_none found, List.filterMap_cons_none rfl,
      ih fun _ _ member => tidy _ _ (List.mem_cons_of_mem _ member)]

/-! ## What a file is expanded to -/

theorem single_normalizeLine {line : Text} (single : '\n' ∉ line) (markers : List Marker) (level : Nat) :
    '\n' ∉ normalizeLine markers level line := by
  rw [normalizeLine]
  cases (underlineMarker? (trimEnd line)).bind fun marker => globalMarker? markers marker level with
  | none => exact not_mem_of_subset single (trimEnd_prefix_self line).subset
  | some marker =>
    intro member
    have equal := List.eq_of_mem_replicate member
    cases marker <;> cases equal

theorem single_localizeFile {tree : Tree} {language : Option Text} {file : Path} {lines localized : List Text}
    {notes : List Note} (ok : localizeFile tree language file lines = .ok (localized, notes))
    (single : ∀ line ∈ lines, '\n' ∉ line) : ∀ line ∈ localized, '\n' ∉ line := by
  cases language with
  | none =>
    cases ok
    exact single
  | some language =>
    obtain ⟨source, _, rfl⟩ := exists_catalog_of_localizeFile ok
    exact Catalog.single_localize (fun phrase member => Catalog.single_phrases (Catalog.mem_ofList member)) single

section
variable {tree : Tree} {language : Option Text} {file : Path} {level : Nat} {lines : List Text}

theorem single_expandedLines? (expanded : expandedLines? tree language file level = some lines) :
    ∀ line ∈ lines, '\n' ∉ line := by
  obtain ⟨content, localized, notes, _, localize, ok⟩ := expandedLines?_eq_some_iff.mp expanded
  obtain ⟨_, rfl⟩ := normalize_eq_ok_iff.mp ok
  intro line member
  obtain ⟨original, among, rfl⟩ := List.mem_map.mp member
  exact single_normalizeLine (single_localizeFile localize (fun _ => not_mem_of_mem_lines) original among) _ _

theorem trimEnd_expandedLines? (expanded : expandedLines? tree language file level = some lines) :
    ∀ line ∈ lines, trimEnd line = line := by
  obtain ⟨content, localized, notes, _, _, ok⟩ := expandedLines?_eq_some_iff.mp expanded
  obtain ⟨_, rfl⟩ := normalize_eq_ok_iff.mp ok
  intro line member
  obtain ⟨original, _, rfl⟩ := List.mem_map.mp member
  exact trimEnd_normalizeLine _ _ original

theorem unskipped_expandedLines? (expanded : expandedLines? tree language file level = some lines) :
    Unskipped level (depths lines) := by
  obtain ⟨content, localized, notes, _, _, ok⟩ := expandedLines?_eq_some_iff.mp expanded
  exact unskipped_normalize ok

end

/-! ## A run writes a stitched document -/

def Task.Ready (n : Nat) : Task → Prop
  | .opening _ level | .listing _ level _ => level ≤ n
  | .body _ level pieces => level ≤ n ∧ (∀ piece ∈ pieces, piece.Fit) ∧ Unskipped n (pieces.filterMap Piece.depth?)

theorem ready_body {tree : Tree} {language : Option Text} {file : Path} {level : Nat} {lines : List Text}
    (expanded : expandedLines? tree language file level = some lines) (met : level ≤ n)
    (tidy : ∀ toctree ∈ toctrees lines, TidyToctree toctree.1 toctree.2) :
    (Task.body file level (pieces lines)).Ready n := by
  have each : ∀ options entries, .toctree options entries ∈ piecesFrom 1 lines → TidyToctree options entries :=
    fun options entries member => tidy (options, entries) (mem_toctrees_iff.mpr member)
  refine ⟨met, ?_, ?_⟩
  · exact fit_piecesFrom 1 lines (trimEnd_expandedLines? expanded) (single_expandedLines? expanded) each
  · rw [pieces, depths_piecesFrom 1 lines each]
    exact (unskipped_expandedLines? expanded).mono met

theorem stitched_contentsEvents (context : Context) : Stitched n (written (contentsEvents context)) := by
  have plain : ∀ line ∈ contentsIsland, underlineMarker? line = none := by decide
  have settled : ∀ line ∈ contentsIsland, Settled line := fun line member =>
    { trimmed := (by decide : ∀ line ∈ contentsIsland, trimEnd line = line) line member
      single := (by decide : ∀ line ∈ contentsIsland, '\n' ∉ line) line member
      toctree := (by decide : ∀ line ∈ contentsIsland, isDirective "toctree".toList line = false) line member
      inclusion := (by decide : ∀ line ∈ contentsIsland, isDirective "include".toList line = false) line member }
  refine ⟨forall_written_contentsEvents context settled, ?_⟩
  rw [depths_eq_nil (forall_written_contentsEvents context plain)]
  trivial

theorem depths_contentsEvents (context : Context) : depths (written (contentsEvents context)) = [] :=
  depths_eq_nil (forall_written_contentsEvents context (by decide))

theorem stitched_toctreeHead? {level below : Nat} {options entries : List Text} {head : List Event}
    (heads : toctreeHead? level options = some (head, below)) (met : level ≤ n) (tidy : TidyToctree options entries)
    (single : ∀ line ∈ options, '\n' ∉ line) :
    Stitched n (written head) ∧ below ≤ reached n (depths (written head)) := by
  rcases toctreeHead?_cases heads with ⟨-, rfl, rfl⟩ | ⟨caption, marker, found, located, rfl, rfl⟩
  · exact ⟨stitched_nil, met⟩
  · obtain rfl := Marker.ofDepth?_eq_some_iff.mp located
    obtain ⟨long, plain, toctree, inclusion⟩ := tidy.caption caption found
    obtain ⟨line, member, subset⟩ := caption_subset found
    have title : Settled caption :=
      ⟨trimEnd_caption found, not_mem_of_subset (single line member) subset, toctree, inclusion⟩
    have underline : underlineMarker? (underlineFor caption marker) = some marker := by
      rw [underlineFor, trimEnd_caption found]
      exact underlineMarker?_replicate marker long
    have fitted : Settled (underlineFor caption marker) := by
      refine settled_underline (trimEnd_replicate _ marker) (fun member => ?_) underline
      have equal := List.eq_of_mem_replicate member
      cases marker <;> cases equal
    rw [written_captionEvents]
    constructor
    · exact (((stitched_nil.plain rfl settled_nil).underline underline met fitted).plain plain title).plain rfl settled_nil
    · rw [depths_cons_of_none rfl, depths_cons_of_none plain, depths_cons_of_some underline, depths_cons_of_none rfl]
      exact Nat.le_max_right _ _

theorem Task.Ready.mono {m : Nat} {task : Task} (ready : task.Ready n) (le : n ≤ m) : task.Ready m := by
  cases task with
  | opening | listing => exact Nat.le_trans ready le
  | body => exact ⟨Nat.le_trans ready.1 le, ready.2.1, ready.2.2.mono le⟩

theorem Task.Ready.fit {file : Path} {level : Nat} {piece : Piece} {rest : List Piece}
    (ready : Task.Ready n (.body file level (piece :: rest))) : piece.Fit :=
  ready.2.1 piece List.mem_cons_self

theorem Task.Ready.tail {file : Path} {level : Nat} {piece : Piece} {rest : List Piece}
    (ready : Task.Ready n (.body file level (piece :: rest))) (other : piece.depth? = none) :
    Task.Ready n (.body file level rest) := by
  obtain ⟨met, fit, unskipped⟩ := ready
  rw [List.filterMap_cons_none other] at unskipped
  exact ⟨met, fun piece member => fit piece (List.mem_cons_of_mem _ member), unskipped⟩

theorem Flattens.stitched {tree : Tree} {limit : Nat} {task : Task} {context after : Context} {events : List Event}
    (flattens : Flattens tree limit task context events after)
    (tidy : EveryToctree tree context.language (events.filterMap Event.visit?) TidyToctree) (ready : task.Ready n) :
    Stitched n (written events) := by
  -- what is written above a task raises `n`, so that `Task.Ready` is kept for what comes below
  induction flattens generalizing n with
  | opening _ _ expanded body ih =>
    exact ih (tidy.mono (List.subset_cons_self _ _))
      (ready_body expanded ready (tidy _ List.mem_cons_self _ expanded))
  | nil | noEntries => exact stitched_nil
  | underline _ ih =>
    obtain ⟨found, settled⟩ := ready.fit
    obtain ⟨_, fit, met, unskipped⟩ := ready
    have below := ih tidy ⟨(Nat.le_succ _).trans (Nat.le_max_right _ _), (List.forall_mem_cons.mp fit).2, unskipped⟩
    exact below.underline found met settled
  | plain _ ih =>
    obtain _ | _ | _ | ⟨plain, settled⟩ := ready.fit
    exact (ih tidy (ready.tail rfl)).plain plain settled
  | inclusion _ opening _ first second =>
    rw [opening.language] at second
    have taken := first (tidy.mono fun _ member => by simp [member]) ready.1
    rw [written_append]
    refine taken.append (Stitched.plain ?_ rfl settled_nil)
    exact second (tidy.mono fun _ member => by simp [member]) ((ready.tail rfl).mono (le_reached n _))
  | @toctree _ _ _ context _ _ _ _ _ _ _ _ _ heads listing _ first second =>
    obtain _ | ⟨own, single⟩ := ready.fit
    obtain ⟨head, deeper⟩ := stitched_toctreeHead? heads ready.1 own single
    rw [listing.language] at second
    have taken := first (tidy.mono fun _ member => by simp [member]) deeper
    simp only [List.append_assoc, written_append]
    refine (stitched_contentsEvents context).append ?_
    rw [depths_contentsEvents]
    refine head.append (taken.append ?_)
    exact second (tidy.mono fun _ member => by simp [member])
      ((ready.tail rfl).mono ((le_reached n _).trans (le_reached _ _)))
  | entry _ opening _ first second =>
    rw [opening.language] at second
    have taken := first (tidy.mono fun _ member => by simp [member]) ready
    rw [written_append]
    refine taken.append (Stitched.plain ?_ rfl settled_nil)
    exact second (tidy.mono fun _ member => by simp [member]) (Nat.le_trans ready (le_reached n _))

/-! ## A stitched document is flattened to itself -/

theorem expand_of_settled (tree : Tree) (enter : Entrance) (file : Path) (level number : Nat) (context : Context)
    {lines : List Text} (settled : ∀ line ∈ lines, Settled line) :
    (expand tree enter file level (piecesFrom number lines) context).result = .ok lines := by
  induction lines generalizing level number with
  | nil => simp [piecesFrom, expand, Outcome.done]
  | cons line rest ih =>
    obtain ⟨own, below⟩ := List.forall_mem_cons.mp settled
    cases found : underlineMarker? line with
    | some marker =>
      rw [piecesFrom_underline found, expand, Outcome.prepend, ih marker.depth (number + 1) below]
      rfl
    | none =>
      rw [piecesFrom_plain found (ne_true_of_eq_false own.toctree) (ne_true_of_eq_false own.inclusion), expand,
        Outcome.prepend, ih level (number + 1) below]
      rfl

theorem readText_resolves {tree : Tree} {path : Path} {content : Text} (read : tree.readText path = .ok content) :
    ∃ location, tree.resolve path = .ok location := by
  cases accessed : tree.access path with
  | error failure =>
    rw [Tree.readText, accessed] at read
    cases read
  | ok location =>
    rw [Tree.access] at accessed
    split at accessed
    · cases accessed
    · exact ⟨location, accessed⟩

theorem flattenTree_of_stitched {copy : Tree} {path : Path} {lines : List Text} (stitched : Stitched 0 lines)
    (read : copy.readText path = .ok (terminated lines)) :
    (flattenTree copy path (Context.new none)).result = .ok lines := by
  have trimmed : ∀ line ∈ lines, trimEnd line = line := fun line member => (stitched.settled line member).trimmed
  have single : ∀ line ∈ lines, '\n' ∉ line := fun line member => (stitched.settled line member).single
  have normal := normalize_of_prefix (hierarchy_prefix_all stitched.unskipped) trimmed
  obtain ⟨location, resolved⟩ := readText_resolves read
  have expanded := expand_of_settled copy (flattenWithin copy copy.entries.length) path 0 1
    ((Context.new none).enter location).countFile stitched.settled
  rw [flattenTree, flattenFile, flattenWithin, resolved]
  simp only [Context.new, List.contains_nil, Bool.false_eq_true, if_false, Outcome.leave, flattenEntered,
    Outcome.noting, read, Context.enter, Context.countFile, Option.filter, localizeFile, lines_terminated trimmed single,
    flattenLines, normal]
  exact expanded

/-- Flattening what flattening wrote changes nothing, whatever language it was brought into. -/
theorem flattenTree_idempotent {tree : Tree} {root : Path} {language : Option Text} {lines : List Text}
    (ok : (flattenTree tree root (.new language)).result = .ok lines)
    (tidy : EveryToctree tree (Context.new language).language (visits (flattenTree tree root (.new language)).notes)
      TidyToctree)
    {copy : Tree} {path : Path} (copied : copy.readText path = .ok (terminated lines)) :
    (flattenTree copy path (.new none)).result = .ok lines ∧ (∀ line ∈ lines, Settled line) ∧
      hierarchy lines <+: Marker.all := by
  obtain ⟨events, after, flattens, rfl, _, entered⟩ := exists_flattens ok
  rw [flattenTree, flattenFile, entered] at tidy
  have stitched : Stitched 0 (written events) := flattens.stitched tidy (Nat.le_refl 0)
  exact ⟨flattenTree_of_stitched stitched copied, stitched.settled, hierarchy_prefix_all stitched.unskipped⟩

theorem flattenTree_idempotent_handbook : ∃ lines,
    (flattenTree handbook "index.rst".toList (.new none)).result = .ok lines ∧
      (flattenTree ⟨[(["out.rst".toList], .text (terminated lines))], []⟩ "out.rst".toList (.new none)).result =
        .ok lines := by
  have succeeds : (flattenTree handbook "index.rst".toList (.new none)).result.toOption.isSome = true := by
    decide +kernel
  obtain ⟨lines, found⟩ := Option.isSome_iff_exists.mp succeeds
  have ok := toOption_eq_some_iff.mp found
  exact ⟨lines, ok, (flattenTree_idempotent ok (by decide +kernel) rfl).1⟩

def captioned : Tree where
  entries := [(["index.rst".toList], .text ".. toctree::\n   :caption: ===\n\n".toList)]

def captionedHead : List Text :=
  [[], ".. raw:: latex".toList, [], "    \\tableofcontents".toList, "    \\newpage".toList, [], []]

theorem flattenTree_not_idempotent_captioned :
    (flattenTree captioned "index.rst".toList (.new none)).result =
        .ok (captionedHead ++ ["===".toList, "###".toList, []]) ∧
      EveryToctree captioned none (visits (flattenTree captioned "index.rst".toList (.new none)).notes)
        (fun options entries => (∀ line ∈ options ++ entries, underlineMarker? line = none) ∧
          ∀ caption ∈ caption? options, 3 ≤ caption.length ∧ isDirective "toctree".toList caption = false ∧
            isDirective "include".toList caption = false) ∧
      (flattenTree ⟨[(["out.rst".toList], .text (terminated (captionedHead ++ ["===".toList, "###".toList, []])))], []⟩
        "out.rst".toList (.new none)).result = .ok (captionedHead ++ ["###".toList, "***".toList, []]) := by
  decide +kernel

end DocPress.Flatten
