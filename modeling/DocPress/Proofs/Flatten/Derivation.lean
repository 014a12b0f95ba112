import DocPress.Flatten.Basic
import Mathlib.Data.List.Basic

/-!
# Derivations of flattening runs

A run that succeeds is described by what happens in it, in order: the files that are entered and the lines that are
written, each with its origin. `Flattens` derives such a run rule by rule, one rule for each kind of piece.
`exists_flattens` finds the derivation of a run that succeeds, and `Flattens.shows` reads a run's result, the files
it reports and its last context off a derivation, so that properties of runs are proved by induction on derivations.
-/

namespace DocPress.Flatten
open Text Heading

/-! ## What happens in a run -/

inductive Origin where
  | file
  | contents
  | caption
  | captionUnderline
  | gap
deriving DecidableEq, Repr

inductive Event where
  | entered (file : Path) (level : Nat)
  | line (origin : Origin) (text : Text)
deriving DecidableEq, Repr

def Event.line? : Event → Option Text
  | .entered .. => none
  | .line _ text => some text

def Event.visit? : Event → Option (Path × Nat)
  | .entered file level => some (file, level)
  | .line .. => none

abbrev gap : Event :=
  .line .gap []

def contentsEvents (context : Context) : List Event :=
  if context.tocInserted then [] else contentsIsland.map (.line .contents)

def captionEvents (caption : Text) (marker : Marker) : List Event :=
  [gap, .line .caption caption, .line .captionUnderline (underlineFor caption marker), gap]

def toctreeHead? (level : Nat) (options : List Text) : Option (List Event × Nat) :=
  match caption? options with
  | none => some ([], level)
  | some caption => (Marker.ofDepth? level).map fun marker => (captionEvents caption marker, level + 1)

def visits (notes : List Note) : List (Path × Nat) :=
  notes.filterMap fun
    | .flattening file level => some (file, level)
    | _ => none

/-- The lines of a file as its directives are looked for: in a language, and with the headings at a level. -/
def expandedLines? (tree : Tree) (language : Option Text) (file : Path) (level : Nat) : Option (List Text) := do
  let content ← (tree.readText file).toOption
  let (localized, _) ← (localizeFile tree language file (Text.lines content)).toOption
  (normalize localized level).toOption

def toctrees (lines : List Text) : List (List Text × List Text) :=
  (pieces lines).filterMap fun
    | .toctree options entries => some (options, entries)
    | _ => none

def EveryToctree (tree : Tree) (language : Option Text) (visits : List (Path × Nat))
    (p : List Text → List Text → Prop) : Prop :=
  ∀ visit ∈ visits, ∀ lines ∈ expandedLines? tree language visit.1 visit.2, ∀ toctree ∈ toctrees lines,
    p toctree.1 toctree.2

instance {tree language visits p} [DecidableRel p] : Decidable (EveryToctree tree language visits p) :=
  inferInstanceAs (Decidable (∀ visit ∈ visits, ∀ lines ∈ expandedLines? tree language visit.1 visit.2,
    ∀ toctree ∈ toctrees lines, p toctree.1 toctree.2))

inductive Task where
  | opening (path : Path) (level : Nat)
  | body (file : Path) (level : Nat) (pieces : List Piece)
  | listing (file : Path) (level : Nat) (entries : List Text)

def Task.outcome (tree : Tree) (limit : Nat) : Task → Context → Outcome
  | .opening path level => flattenWithin tree limit path level
  | .body file level pieces => expand tree (flattenWithin tree limit) file level pieces
  | .listing file level entries => takeEntries tree (flattenWithin tree limit) file level entries

/-- `Flattens tree limit task context events after`: with at most `limit` files nested in each other the task
succeeds from `context`, with these events, and leaves `after`. -/
inductive Flattens (tree : Tree) : Nat → Task → Context → List Event → Context → Prop where
  | opening {limit path level context location lines events after} :
      tree.resolve path = .ok location → location ∉ context.includeStack →
      expandedLines? tree context.language path level = some lines →
      Flattens tree limit (.body path level (pieces lines)) (context.enter location).countFile events after →
      Flattens tree (limit + 1) (.opening path level) context (.entered path level :: events) after.leave
  | nil {limit file level context} :
      Flattens tree limit (.body file level []) context [] context
  | underline {limit file level context marker line rest events after} :
      Flattens tree limit (.body file marker.depth rest) context events after →
      Flattens tree limit (.body file level (.underline marker line :: rest)) context
        (.line .file line :: events) after
  | plain {limit file level context line rest events after} :
      Flattens tree limit (.body file level rest) context events after →
      Flattens tree limit (.body file level (.plain line :: rest)) context (.line .file line :: events) after
  | inclusion {limit file level context number line target rest taken middle events after} :
      tree.isFile (file.directory.join (trim target)) = true →
      Flattens tree limit (.opening (file.directory.join (trim target)) level) context taken middle →
      Flattens tree limit (.body file level rest) middle events after →
      Flattens tree limit (.body file level (.inclusion number line (some target) :: rest)) context
        (taken ++ gap :: events) after
  | toctree {limit file level context options entries rest head below taken middle events after} :
      toctreeHead? level options = some (head, below) →
      Flattens tree limit (.listing file below entries) { context with tocInserted := true } taken middle →
      Flattens tree limit (.body file level rest) middle events after →
      Flattens tree limit (.body file level (.toctree options entries :: rest)) context
        (contentsEvents context ++ head ++ taken ++ events) after
  | noEntries {limit file level context} :
      Flattens tree limit (.listing file level []) context [] context
  | entry {limit file level context entry rest taken middle events after} :
      tree.isFile (file.directory.join (trim (trim entry ++ ".rst".toList))) = true →
      Flattens tree limit (.opening (file.directory.join (trim (trim entry ++ ".rst".toList))) level) context taken
        middle →
      Flattens tree limit (.listing file level rest) middle events after →
      Flattens tree limit (.listing file level (entry :: rest)) context (taken ++ gap :: events) after

/-! ## What a derivation shows of a run -/

def written (events : List Event) : List Text :=
  events.filterMap Event.line?

structure Outcome.Shows (outcome : Outcome) (events : List Event) (after : Context) : Prop where
  result : outcome.result = .ok (written events)
  entered : visits outcome.notes = events.filterMap Event.visit?
  context : outcome.context = after

@[simp]
theorem visits_append (first second : List Note) : visits (first ++ second) = visits first ++ visits second :=
  List.filterMap_append

@[simp]
theorem written_nil : written [] = [] :=
  rfl

@[simp]
theorem written_append (first second : List Event) : written (first ++ second) = written first ++ written second :=
  List.filterMap_append

theorem written_map_line (origin : Origin) (lines : List Text) : written (lines.map (.line origin)) = lines := by
  simp [written, List.filterMap_map, Function.comp_def, Event.line?]

theorem visits_map_line (origin : Origin) (lines : List Text) :
    (lines.map (Event.line origin)).filterMap Event.visit? = [] := by
  simp [List.filterMap_map, Function.comp_def, Event.visit?]

theorem written_contentsEvents (context : Context) :
    written (contentsEvents context) = if context.tocInserted then [] else contentsIsland := by
  rw [contentsEvents]
  split
  · rfl
  · exact written_map_line .contents contentsIsland

theorem forall_written_contentsEvents {p : Text → Prop} (context : Context) (island : ∀ line ∈ contentsIsland, p line) :
    ∀ line ∈ written (contentsEvents context), p line := by
  rw [written_contentsEvents]
  split
  · exact List.forall_mem_nil p
  · exact island

theorem visits_contentsEvents (context : Context) : (contentsEvents context).filterMap Event.visit? = [] := by
  rw [contentsEvents]
  split
  · rfl
  · exact visits_map_line .contents contentsIsland

theorem written_captionEvents (caption : Text) (marker : Marker) :
    written (captionEvents caption marker) = [[], caption, underlineFor caption marker, []] :=
  rfl

theorem toctreeHead?_cases {level below : Nat} {options : List Text} {head : List Event}
    (heads : toctreeHead? level options = some (head, below)) :
    (caption? options = none ∧ head = [] ∧ below = level) ∨
      ∃ caption marker, caption? options = some caption ∧ Marker.ofDepth? level = some marker ∧
        head = captionEvents caption marker ∧ below = level + 1 := by
  rw [toctreeHead?] at heads
  cases found : caption? options with
  | none =>
    obtain ⟨rfl, rfl⟩ : [] = head ∧ level = below := by simpa [found] using heads
    exact .inl ⟨rfl, rfl, rfl⟩
  | some caption =>
    simp only [found, Option.map_eq_some_iff, Prod.mk.injEq] at heads
    obtain ⟨marker, located, rfl, rfl⟩ := heads
    exact .inr ⟨caption, marker, rfl, located, rfl, rfl⟩

theorem visits_toctreeHead? {level below : Nat} {options : List Text} {head : List Event}
    (heads : toctreeHead? level options = some (head, below)) : head.filterMap Event.visit? = [] := by
  rcases toctreeHead?_cases heads with ⟨-, rfl, -⟩ | ⟨_, _, -, -, rfl, -⟩ <;> rfl

theorem Outcome.Shows.noting {outcome : Outcome} {events : List Event} {after : Context}
    (shows : outcome.Shows events after) {notes : List Note} (silent : visits notes = []) :
    (outcome.noting notes).Shows events after where
  result := shows.result
  entered := by rw [Outcome.noting, visits_append, silent, List.nil_append, shows.entered]
  context := shows.context

theorem Outcome.Shows.prepend {outcome : Outcome} {events : List Event} {after : Context}
    (shows : outcome.Shows events after) (head : List Event) (silent : head.filterMap Event.visit? = []) :
    (outcome.prepend (written head)).Shows (head ++ events) after where
  result := by
    rw [Outcome.prepend, shows.result, written_append]
    rfl
  entered := by rw [List.filterMap_append, silent, List.nil_append, ← shows.entered, Outcome.prepend]
  context := shows.context

theorem Outcome.Shows.andThen {outcome : Outcome} {taken events : List Event} {middle after : Context}
    {next : Context → Outcome} (first : outcome.Shows taken middle) (second : (next middle).Shows events after)
    (head : List Event) (silent : head.filterMap Event.visit? = []) :
    (outcome.andThen fun lines context => (next context).prepend (lines ++ written head)).Shows
      (taken ++ head ++ events) after where
  result := by
    simp only [Outcome.andThen, first.result, Outcome.noting, Outcome.prepend, first.context, second.result,
      written_append]
    rfl
  entered := by
    simp only [Outcome.andThen, first.result, Outcome.noting, Outcome.prepend, first.context, visits_append,
      first.entered, second.entered, List.filterMap_append, silent, List.append_nil]
  context := by
    simp only [Outcome.andThen, first.result, Outcome.noting, Outcome.prepend, first.context, second.context]

theorem exists_catalog_of_localizeFile {tree : Tree} {language : Text} {file : Path} {lines localized : List Text}
    {notes : List Note} (ok : localizeFile tree (some language) file lines = .ok (localized, notes)) :
    ∃ source, tree.readText (Catalog.path file language) = .ok source ∧
      localized = (Catalog.parse source).localize lines := by
  simp only [localizeFile] at ok
  split at ok
  · cases ok
  · split at ok
    · cases ok
    · next source read =>
      obtain ⟨rfl, -⟩ := Prod.mk.inj (Except.ok.inj ok)
      exact ⟨source, read, rfl⟩

theorem localizeFile_silent {tree : Tree} {language : Option Text} {file : Path} {lines localized : List Text}
    {notes : List Note} (ok : localizeFile tree language file lines = .ok (localized, notes)) : visits notes = [] := by
  cases language with
  | none =>
    obtain ⟨-, rfl⟩ := Prod.mk.inj (Except.ok.inj ok)
    rfl
  | some language =>
    simp only [localizeFile] at ok
    split at ok
    · cases ok
    · split at ok
      · cases ok
      · obtain ⟨-, rfl⟩ := Prod.mk.inj (Except.ok.inj ok)
        simp [visits]

theorem hierarchyNotes_silent (file : Path) (lines : List Text) (level : Nat) :
    visits (hierarchyNotes file lines level) = [] := by
  rw [hierarchyNotes]
  cases (hierarchy lines).isEmpty <;> rfl

theorem toOption_eq_some_iff {ε α : Type} {result : Except ε α} {a : α} :
    result.toOption = some a ↔ result = .ok a := by
  cases result <;> simp [Except.toOption]

theorem expandedLines?_eq_some_iff {tree : Tree} {language : Option Text} {file : Path} {level : Nat}
    {lines : List Text} : expandedLines? tree language file level = some lines ↔ ∃ content localized notes,
      tree.readText file = .ok content ∧
        localizeFile tree language file (Text.lines content) = .ok (localized, notes) ∧
        normalize localized level = .ok lines := by
  simp only [expandedLines?, Option.bind_eq_bind, Option.bind_eq_some_iff, toOption_eq_some_iff, Prod.exists]
  constructor
  · rintro ⟨content, read, localized, notes, localize, ok⟩
    exact ⟨content, localized, notes, read, localize, ok⟩
  · rintro ⟨content, localized, notes, read, localize, ok⟩
    exact ⟨content, read, localized, notes, localize, ok⟩

theorem Flattens.language {tree : Tree} {limit : Nat} {task : Task} {context after : Context} {events : List Event}
    (flattens : Flattens tree limit task context events after) : after.language = context.language := by
  induction flattens with
  | opening _ _ _ _ ih => exact ih
  | nil | noEntries => rfl
  | underline _ ih | plain _ ih => exact ih
  | inclusion _ _ _ first second | toctree _ _ _ first second | entry _ _ _ first second => exact second.trans first

theorem EveryToctree.mono {tree : Tree} {language : Option Text} {events more : List Event}
    {p : List Text → List Text → Prop} (every : EveryToctree tree language (more.filterMap Event.visit?) p)
    (subset : events ⊆ more) : EveryToctree tree language (events.filterMap Event.visit?) p :=
  fun visit member => every visit (List.filterMap_subset _ subset member)

theorem mem_toctrees_iff {lines options entries : List Text} :
    (options, entries) ∈ toctrees lines ↔ .toctree options entries ∈ pieces lines := by
  rw [toctrees, List.mem_filterMap]
  constructor
  · rintro ⟨piece, member, equal⟩
    cases piece with
    | toctree options entries =>
      cases equal
      exact member
    | underline | inclusion | plain => cases equal
  · intro member
    exact ⟨_, member, rfl⟩

/-! ## From a derivation to the run -/

theorem withContents_shows (file : Path) {context after : Context} {next : Context → Outcome} {events : List Event}
    (shows : (next { context with tocInserted := true }).Shows events after) :
    (withContents file context next).Shows (contentsEvents context ++ events) after := by
  obtain ⟨language, inserted, stack, count⟩ := context
  cases inserted with
  | true => exact shows
  | false =>
    have prepended := shows.prepend _ (visits_map_line .contents contentsIsland)
    rw [written_map_line] at prepended
    exact prepended.noting rfl

theorem takeToctree_shows {tree : Tree} {enter : Entrance} {file : Path} {level below : Nat}
    {options entries : List Text} {head events : List Event} {context after : Context}
    (heads : toctreeHead? level options = some (head, below))
    (shows : (takeEntries tree enter file below entries context).Shows events after) :
    (takeToctree tree enter file level options entries context).Shows (head ++ events) after := by
  rw [takeToctree]
  rcases toctreeHead?_cases heads with ⟨found, rfl, rfl⟩ | ⟨caption, marker, found, located, rfl, rfl⟩
  · rw [found]
    exact shows
  · rw [found]
    simp only [located]
    exact shows.prepend (captionEvents caption marker) rfl

theorem Flattens.shows {tree : Tree} {limit : Nat} {task : Task} {context after : Context} {events : List Event}
    (flattens : Flattens tree limit task context events after) : (task.outcome tree limit context).Shows events after := by
  induction flattens with
  | @opening limit path level context location lines events after resolved outside expanded _ ih =>
    obtain ⟨content, localized, notes, read, localize, ok⟩ := expandedLines?_eq_some_iff.mp expanded
    have body := (ih.noting (hierarchyNotes_silent path localized level)).noting (localizeFile_silent localize)
    simp only [Task.outcome, flattenWithin, resolved, List.contains_iff_mem, if_neg outside]
    simp only [flattenEntered, read, Context.countFile, Context.enter, localize, flattenLines, ok]
    exact ⟨body.result, congrArg _ body.entered, congrArg Context.leave body.context⟩
  | nil | noEntries => exact ⟨rfl, rfl, rfl⟩
  | underline _ ih | plain _ ih => exact ih.prepend [.line .file _] rfl
  | @inclusion limit file level context number line target rest taken middle events after isFile _ _ first second =>
    simp only [Task.outcome, expand, takeIn, isFile, if_true] at first second ⊢
    have spliced := (first.andThen second [gap] rfl).noting (show visits [.includeEntry file target] = [] from rfl)
    rwa [List.append_assoc] at spliced
  | @toctree limit file level context options entries rest head below taken middle events after heads _ _ first second =>
    have taken := withContents_shows file (takeToctree_shows heads first)
    simpa [Task.outcome, expand] using taken.andThen second [] rfl
  | @entry limit file level context entry rest taken middle events after isFile _ _ first second =>
    simp only [Task.outcome, takeEntries, takeIn, isFile, if_true] at first second ⊢
    have spliced := (first.andThen second [gap] rfl).noting (show visits [.toctreeEntry file (trim entry)] = [] from rfl)
    rwa [List.append_assoc] at spliced

/-! ## From a run to its derivation -/

theorem Outcome.result_prepend {outcome : Outcome} {head lines : List Text}
    (ok : (outcome.prepend head).result = .ok lines) : ∃ rest, outcome.result = .ok rest := by
  rw [Outcome.prepend] at ok
  cases result : outcome.result with
  | error error => simp [result, Except.map] at ok
  | ok rest => exact ⟨rest, rfl⟩

theorem Outcome.result_andThen {outcome : Outcome} {next : List Text → Context → Outcome} {lines : List Text}
    (ok : (outcome.andThen next).result = .ok lines) :
    ∃ first, outcome.result = .ok first ∧ (next first outcome.context).result = .ok lines ∧
      (outcome.andThen next).context = (next first outcome.context).context := by
  rw [Outcome.andThen] at ok ⊢
  cases result : outcome.result with
  | error error =>
    rw [result] at ok
    cases result.symm.trans ok
  | ok first =>
    rw [result] at ok
    exact ⟨first, rfl, ok, rfl⟩

def Derived (tree : Tree) (limit : Nat) : Prop :=
  ∀ path level context lines, (flattenWithin tree limit path level context).result = .ok lines →
    ∃ events, Flattens tree limit (.opening path level) context events
      (flattenWithin tree limit path level context).context

variable {tree : Tree} {limit : Nat} {file : Path} {level : Nat} {context : Context} {lines : List Text}

theorem takeIn_result {enter : Entrance} {reference : Text}
    (ok : (takeIn tree enter file reference level context).result = .ok lines) :
    tree.isFile (file.directory.join (trim reference)) = true ∧
      takeIn tree enter file reference level context = enter (file.directory.join (trim reference)) level context := by
  rw [takeIn] at ok ⊢
  cases isFile : tree.isFile (file.directory.join (trim reference)) with
  | true => simp
  | false => simp [isFile, Outcome.failed] at ok

theorem exists_listing (derived : Derived tree limit) {entries : List Text}
    (ok : (takeEntries tree (flattenWithin tree limit) file level entries context).result = .ok lines) :
    ∃ events, Flattens tree limit (.listing file level entries) context events
      (takeEntries tree (flattenWithin tree limit) file level entries context).context := by
  induction entries generalizing context lines with
  | nil => exact ⟨[], .noEntries⟩
  | cons entry rest ih =>
    rw [takeEntries] at ok ⊢
    obtain ⟨first, taken, more, last⟩ := Outcome.result_andThen ok
    obtain ⟨isFile, equal⟩ := takeIn_result taken
    obtain ⟨inner, more⟩ := Outcome.result_prepend more
    rw [equal] at taken more last
    obtain ⟨events, opening⟩ := derived _ _ _ _ taken
    obtain ⟨later, listing⟩ := ih more
    refine ⟨events ++ gap :: later, ?_⟩
    simp only [Outcome.noting, equal, last]
    exact .entry isFile opening listing

theorem exists_toctree (derived : Derived tree limit) {options entries : List Text}
    (ok : (withContents file context
      (takeToctree tree (flattenWithin tree limit) file level options entries)).result = .ok lines) :
    ∃ head below events, toctreeHead? level options = some (head, below) ∧
      Flattens tree limit (.listing file below entries) { context with tocInserted := true } events
        (withContents file context (takeToctree tree (flattenWithin tree limit) file level options entries)).context := by
  have started : ∃ lines, (takeToctree tree (flattenWithin tree limit) file level options entries
      { context with tocInserted := true }).result = .ok lines ∧
      (withContents file context (takeToctree tree (flattenWithin tree limit) file level options entries)).context =
        (takeToctree tree (flattenWithin tree limit) file level options entries
          { context with tocInserted := true }).context := by
    obtain ⟨language, inserted, stack, count⟩ := context
    cases inserted with
    | true => exact ⟨lines, ok, rfl⟩
    | false =>
      obtain ⟨rest, ok⟩ := Outcome.result_prepend ok
      exact ⟨rest, ok, rfl⟩
  obtain ⟨lines, ok, last⟩ := started
  rw [last]
  rw [takeToctree] at ok ⊢
  cases found : caption? options with
  | none =>
    rw [found] at ok
    obtain ⟨events, listing⟩ := exists_listing derived ok
    exact ⟨[], level, events, by simp [toctreeHead?, found], listing⟩
  | some caption =>
    rw [found] at ok
    cases located : Marker.ofDepth? level with
    | none =>
      rw [located] at ok
      cases ok
    | some marker =>
      rw [located] at ok
      obtain ⟨rest, ok⟩ := Outcome.result_prepend ok
      obtain ⟨events, listing⟩ := exists_listing derived ok
      exact ⟨captionEvents caption marker, level + 1, events, by simp [toctreeHead?, found, located], listing⟩

theorem exists_body (derived : Derived tree limit) {pieces : List Piece}
    (ok : (expand tree (flattenWithin tree limit) file level pieces context).result = .ok lines) :
    ∃ events, Flattens tree limit (.body file level pieces) context events
      (expand tree (flattenWithin tree limit) file level pieces context).context := by
  induction pieces generalizing level context lines with
  | nil => exact ⟨[], .nil⟩
  | cons piece rest ih =>
    cases piece with
    | underline marker line =>
      rw [expand] at ok ⊢
      obtain ⟨inner, ok⟩ := Outcome.result_prepend ok
      obtain ⟨events, body⟩ := ih ok
      exact ⟨_, .underline body⟩
    | plain line =>
      rw [expand] at ok ⊢
      obtain ⟨inner, ok⟩ := Outcome.result_prepend ok
      obtain ⟨events, body⟩ := ih ok
      exact ⟨_, .plain body⟩
    | inclusion number line target =>
      cases target with
      | none =>
        rw [expand] at ok
        cases ok
      | some target =>
        rw [expand] at ok ⊢
        obtain ⟨first, taken, more, last⟩ := Outcome.result_andThen ok
        obtain ⟨isFile, equal⟩ := takeIn_result taken
        obtain ⟨inner, more⟩ := Outcome.result_prepend more
        rw [equal] at taken more last
        obtain ⟨events, opening⟩ := derived _ _ _ _ taken
        obtain ⟨later, body⟩ := ih more
        refine ⟨events ++ gap :: later, ?_⟩
        simp only [Outcome.noting, equal, last]
        exact .inclusion isFile opening body
    | toctree options entries =>
      rw [expand] at ok ⊢
      obtain ⟨first, taken, more, last⟩ := Outcome.result_andThen ok
      obtain ⟨head, below, events, heads, listing⟩ := exists_toctree derived taken
      obtain ⟨inner, more⟩ := Outcome.result_prepend more
      obtain ⟨later, body⟩ := ih more
      rw [last]
      exact ⟨_, .toctree heads listing body⟩

theorem derived_flattenWithin (tree : Tree) (limit : Nat) : Derived tree limit := by
  induction limit with
  | zero =>
    intro path level context lines ok
    cases ok
  | succ limit ih =>
    intro path level context lines ok
    rw [flattenWithin] at ok ⊢
    cases resolved : tree.resolve path with
    | error failure =>
      rw [resolved] at ok
      cases ok
    | ok location =>
      simp only [resolved, List.contains_iff_mem] at ok ⊢
      by_cases outside : location ∈ context.includeStack
      · rw [if_pos outside] at ok
        cases ok
      · rw [if_neg outside] at ok ⊢
        change (flattenEntered tree (flattenWithin tree limit) path level (context.enter location)).result = _ at ok
        simp only [flattenEntered, Outcome.noting] at ok ⊢
        cases read : tree.readText path with
        | error failure => simp [read, Outcome.failed] at ok
        | ok content =>
          simp only [read] at ok ⊢
          cases localize : localizeFile tree (context.enter location).countFile.language path (Text.lines content) with
          | error error => simp [localize, Outcome.failed] at ok
          | ok localized =>
            obtain ⟨localized, notes⟩ := localized
            simp only [localize, flattenLines] at ok ⊢
            cases normal : normalize localized level with
            | error depth => simp [normal, Outcome.failed] at ok
            | ok normalized =>
              simp only [normal, Outcome.noting] at ok ⊢
              obtain ⟨events, body⟩ := exists_body ih ok
              have expanded : expandedLines? tree context.language path level = some normalized :=
                expandedLines?_eq_some_iff.mpr ⟨content, localized, notes, read, localize, normal⟩
              exact ⟨_, .opening resolved outside expanded body⟩

theorem exists_flattens {path : Path} (ok : (flattenWithin tree limit path level context).result = .ok lines) :
    ∃ events after, Flattens tree limit (.opening path level) context events after ∧ lines = written events ∧
      (flattenWithin tree limit path level context).context = after ∧
      visits (flattenWithin tree limit path level context).notes = events.filterMap Event.visit? := by
  obtain ⟨events, flattens⟩ := derived_flattenWithin tree limit path level context lines ok
  have shows := flattens.shows
  exact ⟨events, _, flattens, Except.ok.inj (ok.symm.trans shows.result), rfl, shows.entered⟩

def handbook : Tree where
  entries :=
    [(["index.rst".toList], .text "Book\n====\n\n.. toctree::\n   :caption: Parts\n\n   one\n".toList),
      (["one.rst".toList], .text "One\n---\n.. include:: two.rst\n".toList),
      (["two.rst".toList], .text "Two\n~~~\nText\n".toList)]

end DocPress.Flatten
