import DocPress.Proofs.Flatten.Derivation
import DocPress.Proofs.Flatten.Piece
import DocPress.Proofs.Heading.Hierarchy
import Mathlib.Data.List.Forall2

namespace DocPress.Flatten
open Text Markup Heading

/-! ## What is written, line by line -/

def rows (events : List Event) : List (Origin × Text) :=
  events.filterMap fun
    | .entered .. => none
    | .line origin text => some (origin, text)

@[simp]
theorem rows_append (first second : List Event) : rows (first ++ second) = rows first ++ rows second :=
  List.filterMap_append

theorem written_eq_map_rows (events : List Event) : written events = (rows events).map Prod.snd := by
  rw [written, rows, List.map_filterMap]
  apply List.filterMap_congr
  intro event _
  cases event <;> rfl

/-- A line and the line that stands for it in a run `d` levels deeper. Only an underline changes: one that is
recognised, and the one below a caption also where it is too short for that. -/
def ShiftedRow (d : Nat) (row shifted : Origin × Text) : Prop :=
  shifted.1 = row.1 ∧
    match underlineMarker? row.2 with
    | some marker => ∃ moved : Marker, moved.depth = marker.depth + d ∧
        shifted.2 = List.replicate row.2.length moved.toChar
    | none =>
      if row.1 = .captionUnderline then
        row.2.length < 3 ∧ ∃ marker moved : Marker, moved.depth = marker.depth + d ∧
          row.2 = List.replicate row.2.length marker.toChar ∧ shifted.2 = List.replicate row.2.length moved.toChar
      else shifted.2 = row.2

variable {d : Nat}

theorem ShiftedRow.same {origin : Origin} {text : Text} (plain : underlineMarker? text = none)
    (other : origin ≠ .captionUnderline) : ShiftedRow d (origin, text) (origin, text) := by
  simp [ShiftedRow, plain, other]

theorem ShiftedRow.moved {origin : Origin} {n : Nat} {marker moved : Marker}
    (depth : moved.depth = marker.depth + d) (underline : 3 ≤ n ∨ origin = .captionUnderline) :
    ShiftedRow d (origin, List.replicate n marker.toChar) (origin, List.replicate n moved.toChar) := by
  refine ⟨rfl, ?_⟩
  by_cases long : 3 ≤ n
  · simp only [underlineMarker?_replicate marker long, List.length_replicate]
    exact ⟨moved, depth, rfl⟩
  · have caption : origin = .captionUnderline := underline.resolve_left long
    simp only [underlineMarker?_replicate_short marker (Nat.not_le.mp long), if_pos caption, List.length_replicate]
    exact ⟨Nat.not_le.mp long, marker, moved, depth, rfl, rfl⟩

/-! ## The pieces of a file at two levels -/

structure PlainToctree (options entries : List Text) : Prop where
  caption : ∀ caption ∈ caption? options, underlineMarker? caption = none
  entries : ∀ entry ∈ entries, underlineMarker? entry = none

instance : DecidableRel PlainToctree := fun options entries =>
  decidable_of_iff ((∀ caption ∈ caption? options, underlineMarker? caption = none) ∧
    ∀ entry ∈ entries, underlineMarker? entry = none) ⟨fun plain => ⟨plain.1, plain.2⟩, fun plain => ⟨plain.1, plain.2⟩⟩

inductive ShiftedPiece (d : Nat) : Piece → Piece → Prop where
  | underline {marker moved n} : 3 ≤ n → moved.depth = marker.depth + d →
      ShiftedPiece d (.underline marker (List.replicate n marker.toChar))
        (.underline moved (List.replicate n moved.toChar))
  | plain {line} : underlineMarker? line = none → ShiftedPiece d (.plain line) (.plain line)
  | inclusion {number line target} : ShiftedPiece d (.inclusion number line target) (.inclusion number line target)
  | toctree {options shifted entries} : caption? shifted = caption? options → PlainToctree shifted entries →
      ShiftedPiece d (.toctree options entries) (.toctree shifted entries)

inductive ShiftedLine (d : Nat) (line first second : Text) : Prop where
  | underline {marker moved : Marker} {n : Nat} : underlineMarker? line ≠ none → 3 ≤ n →
      moved.depth = marker.depth + d → first = List.replicate n marker.toChar → second = List.replicate n moved.toChar →
      ShiftedLine d line first second
  | plain : underlineMarker? line = none → first = trimEnd line → second = trimEnd line → ShiftedLine d line first second

theorem shiftedLine_normalizeLine {lines : List Text} {level : Nat}
    (fits : level + d + (hierarchy lines).length ≤ Marker.all.length) {line : Text} (member : line ∈ lines) :
    ShiftedLine d line (normalizeLine (hierarchy lines) level line)
      (normalizeLine (hierarchy lines) (level + d) line) := by
  cases found : underlineMarker? line with
  | none => exact .plain found (normalizeLine_of_none found _ _) (normalizeLine_of_none found _ _)
  | some marker =>
    have among := mem_hierarchy_iff.mpr ⟨line, member, found⟩
    have fits_first : level + (hierarchy lines).length ≤ Marker.all.length := by omega
    obtain ⟨first, depth, equal, _⟩ := normalizeLine_of_some fits_first found among
    obtain ⟨second, deeper, equal', _⟩ := normalizeLine_of_some fits found among
    obtain ⟨n, long, visible⟩ := underlineMarker?_eq_some_iff.mp found
    rw [visible, List.length_replicate] at equal equal'
    exact .underline (by simp [found]) long (by omega) equal equal'

theorem ShiftedLine.of_plain {line first second : Text} (shifted : ShiftedLine d line first second)
    (plain : underlineMarker? line = none) : first = trimEnd line ∧ second = trimEnd line := by
  cases shifted with
  | underline found => exact absurd plain found
  | plain _ equal equal' => exact ⟨equal, equal'⟩

theorem ShiftedLine.option? {line first second : Text} (shifted : ShiftedLine d line first second) :
    option? second = option? first := by
  cases shifted with
  | @underline marker moved n _ long _ equal equal' =>
    rw [equal, equal', option?_underline (underlineMarker?_replicate marker long),
      option?_underline (underlineMarker?_replicate moved long)]
  | plain _ equal equal' => rw [equal, equal']

theorem ShiftedLine.eq_of_plain {line first second : Text} (shifted : ShiftedLine d line first second)
    (plain : underlineMarker? second = none) : second = first := by
  cases shifted with
  | @underline marker moved n _ long _ equal equal' =>
    rw [equal', underlineMarker?_replicate moved long] at plain
    cases plain
  | plain _ equal equal' => rw [equal, equal']

theorem ShiftedPiece.of_toctree {first second : Text → Text} {options entries : List Text}
    (moved_options : ∀ line ∈ options, ShiftedLine d line (first line) (second line))
    (moved_entries : ∀ line ∈ entries, ShiftedLine d line (first line) (second line))
    (plain : PlainToctree (options.map second) (entries.map second)) :
    ShiftedPiece d (.toctree (options.map first) (entries.map first))
      (.toctree (options.map second) (entries.map second)) := by
  have same_entries : entries.map first = entries.map second := by
    apply List.map_congr_left
    intro entry member
    exact ((moved_entries entry member).eq_of_plain (plain.entries _ (List.mem_map_of_mem member))).symm
  have same_options : (options.map second).map option? = (options.map first).map option? := by
    rw [List.map_map, List.map_map]
    apply List.map_congr_left
    intro option member
    exact (moved_options option member).option?
  rw [same_entries]
  exact .toctree (caption?_congr same_options) plain

theorem piecesFrom_map_toctree {f : Text → Text} (filled : isFilled ∘ f = isFilled) {line : Text}
    (plain : underlineMarker? (f line) = none) (toctree : isDirective "toctree".toList (f line) = true) (number : Nat)
    (rest : List Text) :
    piecesFrom number ((line :: rest).map f) =
      .toctree ((rest.takeWhile isFilled).map f) ((((rest.dropWhile isFilled).drop 1).takeWhile isFilled).map f) ::
        piecesFrom (number + (rest.takeWhile isFilled).length + 2 +
          (((rest.dropWhile isFilled).drop 1).takeWhile isFilled).length)
          ((((rest.dropWhile isFilled).drop 1).dropWhile isFilled).map f) := by
  rw [List.map_cons, piecesFrom_toctree plain toctree]
  simp only [List.takeWhile_map, List.dropWhile_map, ← List.map_drop, List.length_map, filled]

theorem piecesFrom_shift {first second : Text → Text} (filled_first : isFilled ∘ first = isFilled)
    (filled_second : isFilled ∘ second = isFilled) (number : Nat) (lines : List Text)
    (shifted : ∀ line ∈ lines, ShiftedLine d line (first line) (second line))
    (plain : ∀ options entries, .toctree options entries ∈ piecesFrom number (lines.map second) →
      PlainToctree options entries) :
    List.Forall₂ (ShiftedPiece d) (piecesFrom number (lines.map first)) (piecesFrom number (lines.map second)) := by
  induction number, lines using piecesFrom.induct with
  | case1 number => simp [piecesFrom]
  | case2 number line rest marker found ih =>
    have below := fun line member => shifted line (List.mem_cons_of_mem _ member)
    rw [List.map_cons, List.map_cons] at *
    cases shifted line List.mem_cons_self with
    | @underline marker moved n _ long depth equal equal' =>
      rw [equal, piecesFrom_underline (underlineMarker?_replicate marker long)]
      rw [equal', piecesFrom_underline (underlineMarker?_replicate moved long)] at plain ⊢
      exact .cons (.underline long depth) (ih below fun _ _ member => plain _ _ (List.mem_cons_of_mem _ member))
    | plain none => simp [found] at none
  | case3 number line rest found toctree options below entries ih =>
    have rows : ∀ l ∈ rest, ShiftedLine d l (first l) (second l) :=
      fun l member => shifted l (List.mem_cons_of_mem _ member)
    obtain ⟨equal, equal'⟩ := (shifted line List.mem_cons_self).of_plain found
    rw [piecesFrom_map_toctree filled_first (by simpa [equal] using found) (by simpa [equal] using toctree) number rest]
    rw [piecesFrom_map_toctree filled_second (by simpa [equal'] using found) (by simpa [equal'] using toctree) number
      rest] at plain ⊢
    have safe := plain _ _ List.mem_cons_self
    have below_rest : ∀ l ∈ below, l ∈ rest := fun l member =>
      (List.dropWhile_suffix _).subset (List.mem_of_mem_drop member)
    refine .cons (.of_toctree ?_ ?_ safe) (ih (fun l member => rows l (below_rest l
      ((List.dropWhile_suffix _).subset member))) fun _ _ member => plain _ _ (List.mem_cons_of_mem _ member))
    · exact fun option member => rows option ((List.takeWhile_prefix _).subset member)
    · exact fun entry member => rows entry (below_rest entry ((List.takeWhile_prefix _).subset member))
  | case4 number line rest found toctree inclusion ih =>
    have below := fun line member => shifted line (List.mem_cons_of_mem _ member)
    obtain ⟨equal, equal'⟩ := (shifted line List.mem_cons_self).of_plain found
    have none : underlineMarker? (trimEnd line) = none := by simpa using found
    have cut := piecesFrom_include none (by simpa using toctree) (by simpa using inclusion) number
    rw [List.map_cons, equal', cut] at plain
    rw [List.map_cons, List.map_cons, equal, equal', cut, cut]
    exact .cons .inclusion (ih below fun _ _ member => plain _ _ (List.mem_cons_of_mem _ member))
  | case5 number line rest found toctree inclusion ih =>
    have below := fun line member => shifted line (List.mem_cons_of_mem _ member)
    obtain ⟨equal, equal'⟩ := (shifted line List.mem_cons_self).of_plain found
    have none : underlineMarker? (trimEnd line) = none := by simpa using found
    have cut := piecesFrom_plain none (by simpa using toctree) (by simpa using inclusion) number
    rw [List.map_cons, equal', cut] at plain
    rw [List.map_cons, List.map_cons, equal, equal', cut, cut]
    exact .cons (.plain (by simpa using found)) (ih below fun _ _ member => plain _ _ (List.mem_cons_of_mem _ member))

theorem expandedLines?_shift {tree : Tree} {language : Option Text} {file : Path} {level : Nat} {lines : List Text}
    (expanded : expandedLines? tree language file (level + d) = some lines)
    (plain : ∀ toctree ∈ toctrees lines, PlainToctree toctree.1 toctree.2) :
    ∃ raised, expandedLines? tree language file level = some raised ∧
      List.Forall₂ (ShiftedPiece d) (pieces raised) (pieces lines) := by
  obtain ⟨content, localized, notes, read, localize, ok⟩ := expandedLines?_eq_some_iff.mp expanded
  obtain ⟨fits, rfl⟩ := normalize_eq_ok_iff.mp ok
  have raised : normalize localized level = .ok (localized.map (normalizeLine (hierarchy localized) level)) :=
    normalize_eq_ok_iff.mpr ⟨by omega, rfl⟩
  refine ⟨_, expandedLines?_eq_some_iff.mpr ⟨content, localized, notes, read, localize, raised⟩, ?_⟩
  exact piecesFrom_shift (funext fun line => isFilled_normalizeLine _ _ line)
    (funext fun line => isFilled_normalizeLine _ _ line) 1 localized (fun _ => shiftedLine_normalizeLine fits)
    fun options entries member => plain (options, entries) (mem_toctrees_iff.mpr member)

/-! ## A run at two levels -/

inductive ShiftedTask (d : Nat) : Task → Task → Prop where
  | opening {path level} : ShiftedTask d (.opening path level) (.opening path (level + d))
  | body {file level pieces shifted} : List.Forall₂ (ShiftedPiece d) pieces shifted →
      ShiftedTask d (.body file level pieces) (.body file (level + d) shifted)
  | listing {file level entries} : ShiftedTask d (.listing file level entries) (.listing file (level + d) entries)

theorem contentsEvents_shift (context : Context) :
    List.Forall₂ (ShiftedRow d) (rows (contentsEvents context)) (rows (contentsEvents context)) := by
  have plain : ∀ text ∈ contentsIsland, underlineMarker? text = none := by decide
  rw [List.forall₂_same]
  intro row member
  rw [contentsEvents] at member
  split at member
  · cases member
  · obtain ⟨event, among, equal⟩ := List.mem_filterMap.mp member
    obtain ⟨text, inside, rfl⟩ := List.mem_map.mp among
    cases equal
    exact .same (plain text inside) (by decide)

theorem toctreeHead?_shift {level below : Nat} {options shifted entries : List Text} {head : List Event}
    (same : caption? shifted = caption? options) (plain : PlainToctree shifted entries)
    (heads : toctreeHead? (level + d) shifted = some (head, below)) :
    ∃ raised above, toctreeHead? level options = some (raised, above) ∧ below = above + d ∧
      List.Forall₂ (ShiftedRow d) (rows raised) (rows head) := by
  rw [toctreeHead?] at heads
  rw [toctreeHead?, ← same]
  cases found : caption? shifted with
  | none =>
    obtain ⟨rfl, rfl⟩ : [] = head ∧ level + d = below := by simpa [found] using heads
    exact ⟨[], level, rfl, rfl, .nil⟩
  | some caption =>
    simp only [found, Option.map_eq_some_iff, Prod.mk.injEq] at heads
    obtain ⟨moved, located, rfl, rfl⟩ := heads
    have deep := Marker.ofDepth?_eq_some_iff.mp located
    obtain ⟨marker, shallow⟩ := Marker.exists_ofDepth? (n := level) (by have := moved.depth_lt; omega)
    have depth := Marker.ofDepth?_eq_some_iff.mp shallow
    refine ⟨captionEvents caption marker, level + 1, by rw [shallow]; rfl, by omega, ?_⟩
    have blank : ShiftedRow d (.gap, []) (.gap, []) := .same rfl (by decide)
    exact .cons blank (.cons (.same (plain.caption caption found) (by decide))
      (.cons (.moved (by omega) (.inr rfl)) (.cons blank .nil)))

theorem Flattens.shift {tree : Tree} {limit : Nat} {task : Task} {context after : Context} {events : List Event}
    (flattens : Flattens tree limit task context events after)
    (plain : EveryToctree tree context.language (events.filterMap Event.visit?) PlainToctree) {raised : Task}
    (shifted : ShiftedTask d raised task) :
    ∃ first, Flattens tree limit raised context first after ∧ List.Forall₂ (ShiftedRow d) (rows first) (rows events) := by
  induction flattens generalizing raised with
  | opening resolved outside expanded body ih =>
    cases shifted with
    | opening =>
      obtain ⟨lines, raised, pieces⟩ := expandedLines?_shift expanded (plain _ List.mem_cons_self _ expanded)
      obtain ⟨first, flattens, rows⟩ := ih (plain.mono (List.subset_cons_self _ _)) (.body pieces)
      exact ⟨_, .opening resolved outside raised flattens, rows⟩
  | nil =>
    cases shifted with
    | body pieces =>
      cases pieces
      exact ⟨[], .nil, .nil⟩
  | @underline limit file level context marker line rest events after body ih =>
    cases shifted with
    | body pieces =>
      obtain _ | @⟨_, _, _, _, piece, below⟩ := pieces
      obtain @⟨marker, _, n, long, depth⟩ := piece
      have moved : ShiftedTask d (.body file marker.depth _) (.body file (marker.depth + d) _) := .body below
      rw [← depth] at moved
      obtain ⟨first, flattens, rows⟩ := ih plain moved
      exact ⟨_, .underline flattens, .cons (.moved depth (.inl long)) rows⟩
  | plain body ih =>
    cases shifted with
    | body pieces =>
      obtain _ | @⟨_, _, _, _, piece, below⟩ := pieces
      obtain _ | none := piece
      obtain ⟨first, flattens, rows⟩ := ih plain (.body below)
      exact ⟨_, .plain flattens, .cons (.same none (by decide)) rows⟩
  | inclusion isFile opening body first second =>
    cases shifted with
    | body pieces =>
      obtain _ | @⟨_, _, _, _, piece, below⟩ := pieces
      cases piece
      rw [opening.language] at second
      obtain ⟨taken, flattens, rows⟩ := first (plain.mono fun _ member => by simp [member]) .opening
      obtain ⟨events, later, more⟩ := second (plain.mono fun _ member => by simp [member]) (.body below)
      refine ⟨_, .inclusion isFile flattens later, ?_⟩
      rw [rows_append, rows_append]
      exact List.rel_append rows (.cons (.same rfl (by decide)) more)
  | toctree heads listing body first second =>
    cases shifted with
    | body pieces =>
      obtain _ | @⟨_, _, _, _, piece, below⟩ := pieces
      -- the entries are the same texts at both levels, and so name the same files
      cases piece with
      | toctree same safe =>
        obtain ⟨head, above, found, rfl, beside⟩ := toctreeHead?_shift same safe heads
        rw [listing.language] at second
        obtain ⟨taken, flattens, rows⟩ := first (plain.mono fun _ member => by simp [member]) .listing
        obtain ⟨events, later, more⟩ := second (plain.mono fun _ member => by simp [member]) (.body below)
        refine ⟨_, .toctree found flattens later, ?_⟩
        simp only [rows_append]
        exact List.rel_append (List.rel_append (List.rel_append (contentsEvents_shift _) beside) rows) more
  | noEntries =>
    cases shifted
    exact ⟨[], .noEntries, .nil⟩
  | entry isFile opening listing first second =>
    cases shifted with
    | listing =>
      rw [opening.language] at second
      obtain ⟨taken, flattens, rows⟩ := first (plain.mono fun _ member => by simp [member]) .opening
      obtain ⟨events, later, more⟩ := second (plain.mono fun _ member => by simp [member]) .listing
      refine ⟨_, .entry isFile flattens later, ?_⟩
      rw [rows_append, rows_append]
      exact List.rel_append rows (.cons (.same rfl (by decide)) more)

/-- A document that can be flattened `d` levels deeper can be flattened at the level itself, with the same effect on
the context, and the deeper one has its lines with the headings moved down. -/
theorem flattenFile_shift {tree : Tree} {path : Path} {level : Nat} {context : Context} {lines : List Text}
    (ok : (flattenFile tree path (level + d) context).result = .ok lines)
    (plain : EveryToctree tree context.language (visits (flattenFile tree path (level + d) context).notes) PlainToctree) :
    ∃ first shifted after,
      Flattens tree (tree.entries.length + 1) (.opening path level) context first after ∧
        Flattens tree (tree.entries.length + 1) (.opening path (level + d)) context shifted after ∧
        (flattenFile tree path level context).result = .ok (written first) ∧ lines = written shifted ∧
        (flattenFile tree path level context).context = (flattenFile tree path (level + d) context).context ∧
        (written first).length = lines.length ∧ List.Forall₂ (ShiftedRow d) (rows first) (rows shifted) := by
  obtain ⟨shifted, after, deeper, rfl, last, entered⟩ := exists_flattens ok
  rw [flattenFile, entered] at plain
  obtain ⟨first, flattens, moved⟩ := deeper.shift plain .opening
  have shows := flattens.shows
  refine ⟨first, shifted, after, flattens, deeper, shows.result, rfl, shows.context.trans last.symm, ?_, moved⟩
  rw [written_eq_map_rows, written_eq_map_rows, List.length_map, List.length_map, moved.length_eq]

theorem flattenFile_shift_handbook : ∃ first shifted after,
    Flattens handbook 4 (.opening "index.rst".toList 1) {} first after ∧
      Flattens handbook 4 (.opening "index.rst".toList 2) {} shifted after ∧
      (flattenFile handbook "index.rst".toList 1 {}).result = .ok (written first) ∧
      List.Forall₂ (ShiftedRow 1) (rows first) (rows shifted) := by
  have succeeds : (flattenFile handbook "index.rst".toList (1 + 1) {}).result.toOption.isSome = true := by decide +kernel
  obtain ⟨lines, found⟩ := Option.isSome_iff_exists.mp succeeds
  obtain ⟨first, shifted, after, flattens, deeper, result, _, _, _, moved⟩ :=
    flattenFile_shift (toOption_eq_some_iff.mp found) (by decide +kernel)
  exact ⟨first, shifted, after, flattens, deeper, result, moved⟩

/-- A file whose name looks like an underline. Its name is taken from a line that is moved with the headings. -/
def starred : Tree where
  entries := [(["a.rst".toList], .text ".. toctree::\n\n***\n".toList), (["***.rst".toList], .text "x\n".toList)]

theorem flattenFile_not_shift_starred :
    (flattenFile starred "a.rst".toList 1 {}).result =
        .ok ([[], ".. raw:: latex".toList, [], "    \\tableofcontents".toList, "    \\newpage".toList, [], "x".toList,
          []]) ∧
      EveryToctree starred none (visits (flattenFile starred "a.rst".toList 1 {}).notes)
        (fun options _ => ∀ caption ∈ caption? options, underlineMarker? caption = none) ∧
      (flattenFile starred "a.rst".toList 0 {}).result =
        .error (.missingFile "###.rst".toList "a.rst".toList) := by
  decide +kernel

end DocPress.Flatten
