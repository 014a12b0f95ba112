import DocPress.Proofs.Catalog.Fitted
import DocPress.Proofs.Flatten.Landmark
import DocPress.Proofs.Tree.Files

namespace DocPress.Flatten
open Text Markup Heading Catalog

variable {tree : Tree} {language : Text} {file : Path}

/-! ## What a run relies on -/

def rawLines (tree : Tree) (file : Path) : List Text :=
  ((tree.readText file).toOption.map Text.lines).getD []

def Spared (tree : Tree) (language : Text) (file : Path) : Prop :=
  ∃ source ∈ (tree.readText (Catalog.path file language)).toOption,
    ∀ phrase ∈ (Catalog.parse source).entries, ∀ line ∈ joinWrapped (rawLines tree file),
      occurs phrase.source line = false

instance : Decidable (Spared tree language file) :=
  inferInstanceAs (Decidable (∃ source ∈ (tree.readText (Catalog.path file language)).toOption,
    ∀ phrase ∈ (Catalog.parse source).entries, ∀ line ∈ joinWrapped (rawLines tree file),
      occurs phrase.source line = false))

/-- Joining wrapped lines and fitting underlines leave the landmarks as they are. -/
structure Steady (lines : List Text) : Prop where
  joins : lines.IsChain JoinsHarmlessly
  apart : ∀ toctree ∈ toctrees lines, toctree.2.IsChain fun above entry => continuesLine above entry = false
  entries : ∀ toctree ∈ toctrees lines, ∀ entry ∈ toctree.2, underlineMarker? entry = none
  titles : (joinWrapped lines).IsChain Spanned

instance : DecidablePred Steady := fun lines =>
  decidable_of_iff (lines.IsChain JoinsHarmlessly ∧
    (∀ toctree ∈ toctrees lines, toctree.2.IsChain fun above entry => continuesLine above entry = false) ∧
    (∀ toctree ∈ toctrees lines, ∀ entry ∈ toctree.2, underlineMarker? entry = none) ∧
    (joinWrapped lines).IsChain Spanned)
    ⟨fun ⟨joins, apart, entries, titles⟩ => ⟨joins, apart, entries, titles⟩,
      fun ⟨joins, apart, entries, titles⟩ => ⟨joins, apart, entries, titles⟩⟩

/-! ## One file in two languages -/

inductive Landmark.Lifted : Landmark → Landmark → Prop where
  | heading {marker higher} : higher.depth ≤ marker.depth → Lifted (.heading marker) (.heading higher)
  | inclusion {target} : Lifted (.inclusion target) (.inclusion target)
  | toctree {options entries options' entries'} :
      ((caption? options').isSome = true → (caption? options).isSome = true) →
      entries'.map trim = entries.map trim → Lifted (.toctree options entries) (.toctree options' entries')

theorem lifted_of_joined {f g : Marker → Marker} (le : ∀ marker, (g marker).depth ≤ (f marker).depth)
    {marks joined first second : List Landmark} (join : List.Forall₂ Landmark.Joined marks joined)
    (shown : List.Forall₂ (Landmark.Rendered f) marks first)
    (shown' : List.Forall₂ (Landmark.Rendered g) joined second) : List.Forall₂ Landmark.Lifted first second := by
  induction join generalizing first second with
  | nil =>
    cases shown
    cases shown'
    exact .nil
  | cons mark _ ih =>
    obtain _ | ⟨first, below⟩ := shown
    obtain _ | ⟨second, below'⟩ := shown'
    refine .cons ?_ (ih below below')
    cases mark with
    | heading =>
      cases first
      cases second
      exact .heading (le _)
    | inclusion =>
      cases first
      cases second
      exact .inclusion
    | toctree captions =>
      obtain _ | _ | ⟨caption, entries⟩ := first
      obtain _ | _ | ⟨caption', entries'⟩ := second
      exact .toctree (by rwa [caption, caption']) (entries'.trans entries.symm)

theorem exists_toctree_of_joined {marks joined : List Landmark} (join : List.Forall₂ Landmark.Joined marks joined)
    {options entries : List Text} (member : .toctree options entries ∈ joined) :
    ∃ options, .toctree options entries ∈ marks := by
  induction join with
  | nil => cases member
  | cons mark _ ih =>
    rcases List.mem_cons.mp member with rfl | below
    · cases mark with
      | toctree => exact ⟨_, List.mem_cons_self⟩
    · obtain ⟨options, among⟩ := ih below
      exact ⟨options, List.mem_cons_of_mem _ among⟩

theorem localizeFile_of_spared (spared : Spared tree language file) :
    ∃ notes, localizeFile tree (some language) file (rawLines tree file) =
      .ok (resizeAll (joinWrapped (rawLines tree file)), notes) := by
  obtain ⟨source, found, spared⟩ := spared
  have read := toOption_eq_some_iff.mp found
  simp only [localizeFile, Tree.isFile_of_readText read, Bool.not_true, Bool.false_eq_true, if_false, read]
  exact ⟨_, by rw [← localize_of_spared spared]; rfl⟩

theorem lifted_landmarks {lines : List Text} {level higher : Nat} (steady : Steady lines) (le : higher ≤ level)
    (fits : level + (hierarchy lines).length ≤ Marker.all.length) :
    List.Forall₂ Landmark.Lifted (landmarks (lines.map (normalizeLine (hierarchy lines) level)))
      (landmarks ((resizeAll (joinWrapped lines)).map (normalizeLine (hierarchy lines) higher))) := by
  have join := joined_landmarks steady.joins fun _ _ member => steady.apart _ (mem_landmarks_iff.mp member)
  refine lifted_of_joined (depth_movedMarker_le le fits) join (rendered_landmarks ?_ fun options entries member => ?_)
    (rendered_landmarks ?_ fun options entries member => ?_)
  · exact List.forall₂_map_right_iff.mpr (List.forall₂_same.mpr fun line _ => rendered_normalizeLine _ _ line)
  · exact steady.entries _ (mem_landmarks_iff.mp member)
  · have fitted := rendered_resizeAll steady.titles
    exact List.forall₂_map_right_iff.mpr (fitted.imp fun _ line first => first.trans (rendered_normalizeLine _ _ line))
  · obtain ⟨_, among⟩ := exists_toctree_of_joined join member
    exact steady.entries _ (mem_landmarks_iff.mp among)

theorem expandedLines?_lifted {level higher : Nat} {lines : List Text} (le : higher ≤ level)
    (expanded : expandedLines? tree none file level = some lines) (spared : Spared tree language file)
    (steady : Steady (rawLines tree file)) :
    ∃ others, expandedLines? tree (some language) file higher = some others ∧
      List.Forall₂ Landmark.Lifted (landmarks lines) (landmarks others) := by
  obtain ⟨content, _, _, read, localize, ok⟩ := expandedLines?_eq_some_iff.mp expanded
  obtain ⟨rfl, _⟩ := Prod.mk.inj (Except.ok.inj localize)
  obtain ⟨notes, localized⟩ := localizeFile_of_spared spared
  have raw : rawLines tree file = Text.lines content := by
    rw [rawLines, read]
    rfl
  rw [raw] at localized steady
  obtain ⟨fits, rfl⟩ := normalize_eq_ok_iff.mp ok
  have same : hierarchy (resizeAll (joinWrapped (Text.lines content))) = hierarchy (Text.lines content) :=
    (hierarchy_of_rendered (rendered_resizeAll steady.titles)).trans (hierarchy_joinWrapped _)
  have ok' := normalize_eq_ok_iff.mpr ⟨by rw [same]; exact Nat.le_trans (Nat.add_le_add_right le _) fits, rfl⟩
  refine ⟨_, expandedLines?_eq_some_iff.mpr ⟨content, _, notes, read, localized, ok'⟩, ?_⟩
  rw [same]
  exact lifted_landmarks steady le fits

/-! ## A run in two languages -/

def entered (events : List Event) : List Path :=
  (events.filterMap Event.visit?).map Prod.fst

@[simp]
theorem entered_append (first second : List Event) : entered (first ++ second) = entered first ++ entered second := by
  simp [entered]

theorem entered_contentsEvents (context : Context) : entered (contentsEvents context) = [] := by
  rw [entered, visits_contentsEvents, List.map_nil]

def Context.into (context : Context) (language : Text) : Context :=
  { context with language := some language }

inductive LiftedTask : Task → Task → Prop where
  | opening {path level higher} : higher ≤ level → LiftedTask (.opening path level) (.opening path higher)
  | body {file level higher pieces others} : higher ≤ level →
      List.Forall₂ Landmark.Lifted (pieces.filterMap Piece.landmark?) (others.filterMap Piece.landmark?) →
      LiftedTask (.body file level pieces) (.body file higher others)
  | listing {file level higher entries others} : higher ≤ level → others.map trim = entries.map trim →
      LiftedTask (.listing file level entries) (.listing file higher others)

theorem Flattens.behind_plain {limit level : Nat} {context after : Context} {events : List Event}
    {before rest : List Piece} (flattens : Flattens tree limit (.body file level rest) context events after)
    (plain : ∀ piece ∈ before, piece.landmark? = none) :
    ∃ more, Flattens tree limit (.body file level (before ++ rest)) context more after ∧ entered more = entered events := by
  induction before with
  | nil => exact ⟨events, flattens, rfl⟩
  | cons piece before ih =>
    obtain ⟨first, below⟩ := List.forall_mem_cons.mp plain
    obtain ⟨more, flattens, same⟩ := ih below
    cases piece with
    | plain line => exact ⟨_, .plain flattens, same⟩
    | underline | inclusion | toctree => cases first

theorem toctreeHead?_eq_some {level below : Nat} {options : List Text} {head : List Event}
    (heads : toctreeHead? level options = some (head, below)) :
    entered head = [] ∧ level ≤ below ∧
      ((caption? options).isSome = true → level < Marker.all.length ∧ below = level + 1) := by
  rcases toctreeHead?_cases heads with ⟨found, rfl, rfl⟩ | ⟨caption, marker, found, located, rfl, rfl⟩
  · rw [found]
    exact ⟨rfl, Nat.le_refl _, fun captioned => absurd captioned Bool.false_ne_true⟩
  · have depth := marker.depth_lt
    rw [← Marker.ofDepth?_eq_some_iff.mp located] at depth
    exact ⟨rfl, Nat.le_succ _, fun _ => ⟨depth, rfl⟩⟩

theorem toctreeHead?_lifted {level higher below : Nat} {options others : List Text} {head : List Event}
    (le : higher ≤ level) (captions : (caption? others).isSome = true → (caption? options).isSome = true)
    (heads : toctreeHead? level options = some (head, below)) :
    ∃ head' below', toctreeHead? higher others = some (head', below') ∧ below' ≤ below := by
  obtain ⟨_, deeper, captioned⟩ := toctreeHead?_eq_some heads
  rw [toctreeHead?]
  cases found : caption? others with
  | none => exact ⟨[], higher, rfl, Nat.le_trans le deeper⟩
  | some caption =>
    obtain ⟨fits, rfl⟩ := captioned (captions (by rw [found, Option.isSome_some]))
    obtain ⟨marker, located⟩ := Marker.exists_ofDepth? (Nat.lt_of_le_of_lt le fits)
    exact ⟨captionEvents caption marker, higher + 1, by simp [located], Nat.succ_le_succ le⟩

inductive LiftedPiece : Piece → Piece → Prop where
  | underline {marker higher line line'} : higher.depth ≤ marker.depth →
      LiftedPiece (.underline marker line) (.underline higher line')
  | inclusion {number number' line line' target} :
      LiftedPiece (.inclusion number line target) (.inclusion number' line' target)
  | toctree {options entries options' entries'} :
      ((caption? options').isSome = true → (caption? options).isSome = true) →
      entries'.map trim = entries.map trim → LiftedPiece (.toctree options entries) (.toctree options' entries')

theorem liftedPiece_of_landmark? {piece other : Piece} {mark mark' : Landmark} (found : piece.landmark? = some mark)
    (found' : other.landmark? = some mark') (lifted : Landmark.Lifted mark mark') : LiftedPiece piece other := by
  cases piece <;> cases other <;> cases found <;> cases found' <;> cases lifted
  · next depth => exact .underline depth
  · next captions entries => exact .toctree captions entries
  · exact .inclusion

theorem LiftedTask.cut {level : Nat} {piece : Piece} {rest : List Piece} {other : Task} {mark : Landmark}
    (found : piece.landmark? = some mark) (lifted : LiftedTask (.body file level (piece :: rest)) other) :
    ∃ higher before piece' rest', other = .body file higher (before ++ piece' :: rest') ∧ higher ≤ level ∧
      (∀ piece ∈ before, piece.landmark? = none) ∧ LiftedPiece piece piece' ∧
      List.Forall₂ Landmark.Lifted (rest.filterMap Piece.landmark?) (rest'.filterMap Piece.landmark?) := by
  obtain _ | ⟨le, marks⟩ := lifted
  rw [List.filterMap_cons_some found] at marks
  obtain ⟨mark', marks', mark, below, equal⟩ := List.forall₂_cons_left_iff.mp marks
  obtain ⟨before, piece', rest', rfl, plain, found', rfl⟩ := List.filterMap_eq_cons_iff.mp equal
  exact ⟨_, before, piece', rest', rfl, le, plain, liftedPiece_of_landmark? found found' mark, below⟩

def Ready (tree : Tree) (language : Text) (file : Path) : Prop :=
  Spared tree language file ∧ Steady (rawLines tree file)

theorem Flattens.localized {limit : Nat} {task other : Task} {context after : Context} {events : List Event}
    (flattens : Flattens tree limit task context events after) (unlocalized : context.language = none)
    (ready : ∀ file ∈ entered events, Ready tree language file) (lifted : LiftedTask task other) :
    ∃ more, Flattens tree limit other (context.into language) more (after.into language) ∧
      entered more = entered events := by
  -- each landmark is met by the other run too, after lines that are none and are only written
  induction flattens generalizing other with
  | @opening limit path level context location lines events after resolved outside expanded body ih =>
    obtain @⟨_, _, higher, le⟩ := lifted
    obtain ⟨spared, steady⟩ := ready path List.mem_cons_self
    rw [unlocalized] at expanded
    obtain ⟨others, expanded', marks⟩ := expandedLines?_lifted le expanded spared steady
    obtain ⟨more, flattens, same⟩ := ih unlocalized (fun file member => ready file (List.mem_cons_of_mem _ member))
      (.body le marks)
    have opened := @Flattens.opening tree limit path higher (context.into language) location others more
      (after.into language) resolved outside expanded' flattens
    exact ⟨_, opened, congrArg (path :: ·) same⟩
  | nil =>
    obtain _ | @⟨_, _, _, _, others, le, marks⟩ := lifted
    have plain := List.filterMap_eq_nil_iff.mp (List.forall₂_nil_left_iff.mp marks)
    obtain ⟨more, flattens, same⟩ := Flattens.nil.behind_plain plain
    rw [List.append_nil] at flattens
    exact ⟨more, flattens, same⟩
  | underline body ih =>
    obtain ⟨higher, before, _, below, rfl, _, plain, ⟨depth⟩, marks⟩ := lifted.cut rfl
    obtain ⟨more, flattens, same⟩ := ih unlocalized ready (.body depth marks)
    obtain ⟨all, flattens, same'⟩ := (Flattens.underline flattens).behind_plain plain
    exact ⟨all, flattens, same'.trans same⟩
  | plain body ih =>
    obtain _ | ⟨le, marks⟩ := lifted
    exact ih unlocalized ready (.body le marks)
  | inclusion isFile opening body first second =>
    obtain ⟨higher, before, _, below, rfl, le, plain, ⟨⟩, marks⟩ := lifted.cut rfl
    obtain ⟨ready, ready'⟩ := List.forall_mem_append.mp (entered_append _ _ ▸ ready)
    obtain ⟨taken, flattens, same⟩ := first unlocalized ready (.opening le)
    obtain ⟨more, rest, same'⟩ := second (opening.language.trans unlocalized) ready' (.body le marks)
    obtain ⟨all, flattens, same''⟩ := (Flattens.inclusion isFile flattens rest).behind_plain plain
    refine ⟨all, flattens, same''.trans ?_⟩
    rw [entered_append, entered_append, same]
    exact congrArg _ same'
  | @toctree limit file level context options entries rest head below taken middle events after heads listing body
      first second =>
    obtain ⟨higher, before, _, _, rfl, le, plain, piece, marks⟩ := lifted.cut rfl
    obtain _ | _ | ⟨captions, named⟩ := piece
    obtain ⟨head', level', heads', le'⟩ := toctreeHead?_lifted le captions heads
    have silent := (toctreeHead?_eq_some heads).1
    have silent' := (toctreeHead?_eq_some heads').1
    simp only [entered_append, entered_contentsEvents, silent, List.nil_append] at ready ⊢
    obtain ⟨ready, ready'⟩ := List.forall_mem_append.mp ready
    obtain ⟨taken, flattens, same⟩ := first unlocalized ready (.listing le' named)
    obtain ⟨more, rest, same'⟩ := second (listing.language.trans unlocalized) ready' (.body le marks)
    have toctree : Flattens tree limit _ (context.into language) _ _ := .toctree heads' flattens rest
    obtain ⟨all, flattens, same''⟩ := toctree.behind_plain plain
    refine ⟨all, flattens, same''.trans ?_⟩
    simp only [entered_append, entered_contentsEvents, silent', List.nil_append, same, same']
  | noEntries =>
    obtain _ | _ | ⟨le, entries⟩ := lifted
    rw [List.map_nil, List.map_eq_nil_iff] at entries
    subst entries
    exact ⟨[], .noEntries, rfl⟩
  | entry isFile opening listing first second =>
    obtain _ | _ | ⟨le, entries⟩ := lifted
    rw [List.map_cons] at entries
    obtain ⟨other, others, rfl, same, entries⟩ := List.map_eq_cons_iff.mp entries
    obtain ⟨ready, ready'⟩ := List.forall_mem_append.mp (entered_append _ _ ▸ ready)
    rw [← same] at isFile first
    obtain ⟨taken, flattens, same⟩ := first unlocalized ready (.opening le)
    obtain ⟨more, rest, same'⟩ := second (opening.language.trans unlocalized) ready' (.listing le entries)
    refine ⟨_, .entry isFile flattens rest, ?_⟩
    rw [entered_append, entered_append, same]
    exact congrArg _ same'

/-- In another language a run succeeds where it does without, and enters the same files in the same order. -/
theorem flattenTree_localized {root : Path} {lines : List Text}
    (ok : (flattenTree tree root (.new none)).result = .ok lines)
    (spared : ∀ visit ∈ visits (flattenTree tree root (.new none)).notes, Spared tree language visit.1)
    (steady : ∀ visit ∈ visits (flattenTree tree root (.new none)).notes, Steady (rawLines tree visit.1)) :
    ∃ localized, (flattenTree tree root (.new (some language))).result = .ok localized ∧
      (visits (flattenTree tree root (.new (some language))).notes).map Prod.fst =
        (visits (flattenTree tree root (.new none)).notes).map Prod.fst := by
  cases language with
  | nil => exact ⟨lines, ok, rfl⟩
  | cons c language =>
    obtain ⟨events, after, flattens, _, _, visited⟩ := exists_flattens ok
    have ready : ∀ file ∈ entered events, Ready tree (c :: language) file := by
      intro file member
      rw [entered, ← visited] at member
      obtain ⟨visit, among, rfl⟩ := List.mem_map.mp member
      exact ⟨spared visit among, steady visit among⟩
    obtain ⟨more, localized, same⟩ := flattens.localized rfl ready (.opening (Nat.le_refl 0))
    have shows := localized.shows
    refine ⟨written more, shows.result, ?_⟩
    calc (visits (flattenTree tree root (.new (some (c :: language)))).notes).map Prod.fst
      _ = entered more := congrArg _ shows.entered
      _ = entered events := same
      _ = (visits (flattenTree tree root (.new none)).notes).map Prod.fst := congrArg _ visited.symm

def catalogs (names : List Text) : List (Location × Entry) :=
  [(["locales".toList], .directory), (["locales".toList, "de".toList], .directory),
    (["locales".toList, "de".toList, "LC_MESSAGES".toList], .directory)] ++
    names.map fun name => (["locales".toList, "de".toList, "LC_MESSAGES".toList, name ++ ".po".toList],
      .text "msgid \"\"\nmsgstr \"\"\n\nmsgid \"Preface\"\nmsgstr \"Vorwort\"\n".toList)

def bilingual : Tree where
  entries :=
    [(["index.rst".toList], .text ("Book\n====\n\nA sentence that\ngoes on.\n\n.. toctree::\n    :maxdepth: 1\n".toList ++
        "    :caption: Parts\n\n   one\n".toList)),
      (["one.rst".toList], .text "One\n---\n.. include:: two.rst\n".toList),
      (["two.rst".toList], .text "Two\n~~~\nText\n".toList)] ++
      catalogs ["index".toList, "one".toList, "two".toList]

theorem flattenTree_localized_bilingual :
    (∀ visit ∈ visits (flattenTree bilingual "index.rst".toList (.new none)).notes,
        Spared bilingual "de".toList visit.1 ∧ Steady (rawLines bilingual visit.1)) ∧
      ∃ localized, (flattenTree bilingual "index.rst".toList (.new (some "de".toList))).result = .ok localized ∧
        (visits (flattenTree bilingual "index.rst".toList (.new (some "de".toList))).notes).map Prod.fst =
          ["index.rst".toList, "one.rst".toList, "two.rst".toList] := by
  have succeeds : (flattenTree bilingual "index.rst".toList (.new none)).result.toOption.isSome = true := by
    decide +kernel
  have spared : ∀ visit ∈ visits (flattenTree bilingual "index.rst".toList (.new none)).notes,
      Spared bilingual "de".toList visit.1 := by decide +kernel
  have steady : ∀ visit ∈ visits (flattenTree bilingual "index.rst".toList (.new none)).notes,
      Steady (rawLines bilingual visit.1) := by decide +kernel
  have files : (visits (flattenTree bilingual "index.rst".toList (.new none)).notes).map Prod.fst =
      ["index.rst".toList, "one.rst".toList, "two.rst".toList] := by decide +kernel
  obtain ⟨lines, found⟩ := Option.isSome_iff_exists.mp succeeds
  obtain ⟨localized, result, same⟩ := flattenTree_localized (toOption_eq_some_iff.mp found) spared steady
  exact ⟨fun visit member => ⟨spared visit member, steady visit member⟩, localized, result, same.trans files⟩

def swallowing : Tree where
  entries :=
    [(["index.rst".toList], .text "Text\n.. include:: part.rst\n".toList),
      (["part.rst".toList], .text "Part\n".toList)] ++ catalogs ["index".toList, "part".toList]

theorem flattenTree_not_localized_swallowing :
    ¬∀ (tree : Tree) (root : Path) (language : Text) (lines : List Text),
      (flattenTree tree root (.new none)).result = .ok lines →
      (∀ visit ∈ visits (flattenTree tree root (.new none)).notes, Spared tree language visit.1) →
      ∃ localized, (flattenTree tree root (.new (some language))).result = .ok localized ∧
        (visits (flattenTree tree root (.new (some language))).notes).map Prod.fst =
          (visits (flattenTree tree root (.new none)).notes).map Prod.fst := by
  intro unconditional
  obtain ⟨_, _, same⟩ := unconditional swallowing "index.rst".toList "de".toList
    ["Text".toList, "Part".toList, []] (by decide +kernel) (by decide +kernel)
  revert same
  decide +kernel

end DocPress.Flatten
