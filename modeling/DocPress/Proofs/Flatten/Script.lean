import DocPress.Proofs.Flatten.Derivation

/-!
# Files as scripts

What a file does to a run is a list of actions that depends on nothing in the run but its language: to write lines, to
meet a toctree, to take in another file, to stop. `expand_eq_perform` says that a file is flattened by performing its
actions one after the other, whatever comes of them, and `flattenOnce_cases` what a call of the flattener does with the
file it is given. Statements about all runs, those that fail included, are proved by going through the actions.
-/

namespace DocPress.Flatten
open Text Heading

/-! ## One outcome after another -/

def Outcome.followedBy (outcome : Outcome) (next : Context → Outcome) : Outcome :=
  outcome.andThen fun lines context => (next context).prepend lines

namespace Outcome
variable {outcome : Outcome} {context : Context} {next later : Context → Outcome}

theorem prepend_nil (outcome : Outcome) : outcome.prepend [] = outcome := by
  obtain ⟨result, context, notes⟩ := outcome
  cases result <;> rfl

theorem prepend_prepend (first second : List Text) (outcome : Outcome) :
    (outcome.prepend second).prepend first = outcome.prepend (first ++ second) := by
  obtain ⟨result, context, notes⟩ := outcome
  cases result with
  | error error => rfl
  | ok lines => simp [prepend, Except.map]

theorem prepend_noting (lines : List Text) (notes : List Note) (outcome : Outcome) :
    (outcome.noting notes).prepend lines = (outcome.prepend lines).noting notes :=
  rfl

theorem done_followedBy (lines : List Text) : (done lines context).followedBy next = (next context).prepend lines := by
  simp [followedBy, andThen, done, noting]

theorem noting_followedBy (notes : List Note) :
    (outcome.noting notes).followedBy next = (outcome.followedBy next).noting notes := by
  obtain ⟨result, context, own⟩ := outcome
  cases result with
  | error error => rfl
  | ok lines => simp [followedBy, andThen, noting, prepend]

theorem prepend_followedBy (lines : List Text) :
    (outcome.prepend lines).followedBy next = (outcome.followedBy next).prepend lines := by
  obtain ⟨result, context, notes⟩ := outcome
  cases result with
  | error error => rfl
  | ok own =>
    change ((next context).prepend (lines ++ own)).noting notes = (((next context).prepend own).noting notes).prepend lines
    rw [prepend_noting, prepend_prepend]

theorem followedBy_assoc :
    (outcome.followedBy next).followedBy later = outcome.followedBy fun context => (next context).followedBy later := by
  obtain ⟨result, context, notes⟩ := outcome
  cases result with
  | error error => rfl
  | ok lines =>
    have split : (⟨.ok lines, context, notes⟩ : Outcome) = (done lines context).noting notes := by simp [done, noting]
    rw [split, noting_followedBy, done_followedBy, noting_followedBy, prepend_followedBy, noting_followedBy,
      done_followedBy]

theorem followedBy_done_nil (outcome : Outcome) : outcome.followedBy (done []) = outcome := by
  obtain ⟨result, context, notes⟩ := outcome
  cases result with
  | error error => rfl
  | ok lines => simp [followedBy, andThen, done, noting, prepend, Except.map]

theorem followedBy_of_ok {lines : List Text} (ok : outcome.result = .ok lines) :
    (outcome.followedBy next).result = (next outcome.context).result.map (lines ++ ·) ∧
      (outcome.followedBy next).context = (next outcome.context).context ∧
      (outcome.followedBy next).notes = outcome.notes ++ (next outcome.context).notes := by
  rw [followedBy, andThen, ok]
  exact ⟨rfl, rfl, rfl⟩

theorem result_prepend_eq (lines : List Text) (outcome : Outcome) :
    (outcome.prepend lines).result = outcome.result.map (lines ++ ·) :=
  rfl

theorem followedBy_of_error {error : Error} (failed : outcome.result = .error error) :
    outcome.followedBy next = outcome := by
  rw [followedBy, andThen, failed]

end Outcome

/-! ## Actions -/

inductive Action where
  | write (lines : List Text)
  | meetToctree
  | takeIn (note : Note) (reference : Text) (level : Nat)
  | stop (error : Error)
deriving DecidableEq, Repr

def captionActions (file : Path) (level : Nat) (options : List Text) : List Action × Nat :=
  match caption? options with
  | none => ([], level)
  | some caption =>
    match Marker.ofDepth? level with
    | none => ([.stop (.headingTooDeep file level)], level + 1)
    | some marker => ([.write (captionLines caption marker)], level + 1)

def entryAction (file : Path) (level : Nat) (entry : Text) : Action :=
  .takeIn (.toctreeEntry file (trim entry)) (trim entry ++ ".rst".toList) level

def Piece.actions (file : Path) (level : Nat) : Piece → List Action
  | .underline _ line => [.write [line]]
  | .plain line => [.write [line]]
  | .inclusion number line none => [.stop (.directiveWithoutTarget file number line)]
  | .inclusion _ _ (some target) => [.takeIn (.includeEntry file target) target level]
  | .toctree options entries =>
    .meetToctree :: (captionActions file level options).1 ++
      entries.map (entryAction file (captionActions file level options).2)

def Piece.levelBelow (level : Nat) : Piece → Nat
  | .underline marker _ => marker.depth
  | _ => level

def actions (file : Path) : Nat → List Piece → List Action
  | _, [] => []
  | level, piece :: rest => piece.actions file level ++ actions file (piece.levelBelow level) rest

section
variable (tree : Tree) (enter : Entrance) (file : Path)

def act : Action → Context → Outcome
  | .write lines, context => .done lines context
  | .meetToctree, context =>
    if context.tocInserted then .done [] context
    else (Outcome.done contentsIsland { context with tocInserted := true }).noting [.contentsInserted file]
  | .takeIn note reference level, context =>
    ((takeIn tree enter file reference level context).followedBy (.done [[]])).noting [note]
  | .stop error, context => .failed error context

def perform : List Action → Context → Outcome
  | [], context => .done [] context
  | action :: rest, context => (act tree enter file action context).followedBy (perform rest)

theorem perform_append (first second : List Action) (context : Context) :
    perform tree enter file (first ++ second) context =
      (perform tree enter file first context).followedBy (perform tree enter file second) := by
  induction first generalizing context with
  | nil => exact ((Outcome.done_followedBy []).trans (Outcome.prepend_nil _)).symm
  | cons action first ih =>
    rw [List.cons_append, perform, perform, Outcome.followedBy_assoc]
    exact congrArg _ (funext ih)

theorem perform_singleton (action : Action) (context : Context) :
    perform tree enter file [action] context = act tree enter file action context :=
  Outcome.followedBy_done_nil _

theorem perform_takeIn {note : Note} {reference : Text} {level : Nat} {rest : List Action} {context : Context}
    (isFile : tree.isFile (file.directory.join (trim reference)) = true) :
    perform tree enter file (.takeIn note reference level :: rest) context =
      ((enter (file.directory.join (trim reference)) level context).followedBy fun context =>
        (perform tree enter file rest context).prepend [[]]).noting [note] := by
  rw [perform, act, takeIn, isFile, if_pos rfl, Outcome.noting_followedBy, Outcome.followedBy_assoc]
  simp only [Outcome.done_followedBy]

theorem perform_takeIn_missing {note : Note} {reference : Text} {level : Nat} {rest : List Action} {context : Context}
    (missing : tree.isFile (file.directory.join (trim reference)) = false) :
    perform tree enter file (.takeIn note reference level :: rest) context =
      (Outcome.failed (.missingFile (file.directory.join (trim reference)) file) context).noting [note] := by
  rw [perform, act, takeIn, missing]
  rfl

/-! ## Flattening performs the actions -/

theorem withContents_eq (context : Context) (next : Context → Outcome) :
    withContents file context next = (act tree enter file .meetToctree context).followedBy next := by
  rw [withContents, act]
  split
  · rw [Outcome.done_followedBy, Outcome.prepend_nil]
  · rw [Outcome.noting_followedBy, Outcome.done_followedBy]

theorem andThen_takeIn_eq (note : Note) (reference : Text) (level : Nat) (context : Context)
    (next : Context → Outcome) :
    ((takeIn tree enter file reference level context).andThen fun lines context =>
        (next context).prepend (lines ++ [[]])).noting [note] =
      (act tree enter file (.takeIn note reference level) context).followedBy next := by
  rw [act, Outcome.noting_followedBy, Outcome.followedBy_assoc]
  simp only [Outcome.done_followedBy]
  simp only [Outcome.followedBy, Outcome.prepend_prepend]

theorem takeEntries_eq_perform (level : Nat) (entries : List Text) (context : Context) :
    takeEntries tree enter file level entries context =
      perform tree enter file (entries.map (entryAction file level)) context := by
  induction entries generalizing context with
  | nil => rfl
  | cons entry rest ih =>
    rw [takeEntries, List.map_cons, perform, entryAction, ← andThen_takeIn_eq]
    simp only [ih]

theorem takeToctree_eq_perform (level : Nat) (options entries : List Text) (context : Context) :
    takeToctree tree enter file level options entries context =
      perform tree enter file ((captionActions file level options).1 ++
        entries.map (entryAction file (captionActions file level options).2)) context := by
  rw [takeToctree, captionActions]
  cases caption? options with
  | none => exact takeEntries_eq_perform tree enter file level entries context
  | some caption =>
    cases Marker.ofDepth? level with
    | none => rfl
    | some marker =>
      change (takeEntries tree enter file (level + 1) entries context).prepend (captionLines caption marker) =
        perform tree enter file (.write (captionLines caption marker) :: entries.map (entryAction file (level + 1))) context
      rw [perform, act, Outcome.done_followedBy, takeEntries_eq_perform]

theorem expand_eq_perform (level : Nat) (pieces : List Piece) (context : Context) :
    expand tree enter file level pieces context = perform tree enter file (actions file level pieces) context := by
  induction pieces generalizing level context with
  | nil => rfl
  | cons piece rest ih =>
    rw [actions, perform_append]
    cases piece with
    | underline marker line =>
      rw [expand, ih, Piece.actions, perform_singleton, act, Outcome.done_followedBy]
      rfl
    | plain line =>
      rw [expand, ih, Piece.actions, perform_singleton, act, Outcome.done_followedBy]
      rfl
    | inclusion number line target =>
      cases target with
      | none => rfl
      | some target =>
        rw [expand, Piece.actions, perform_singleton, ← andThen_takeIn_eq]
        simp only [ih]
        rfl
    | toctree options entries =>
      rw [expand, Piece.actions, List.cons_append, perform, withContents_eq tree enter,
        funext (takeToctree_eq_perform tree enter file level options entries)]
      simp only [ih]
      rfl

end

/-! ## The script of a file -/

def script (tree : Tree) (language : Option Text) (file : Path) (level : Nat) : Except Error (List Action) := do
  let content ← (tree.readText file).mapError (.unreadable file)
  let (localized, _) ← localizeFile tree language file (Text.lines content)
  let lines ← (normalize localized level).mapError (.headingTooDeep file)
  return actions file level (pieces lines)

def runScript (tree : Tree) (enter : Entrance) (file : Path) (script : Except Error (List Action)) (context : Context) :
    Outcome :=
  match script with
  | .error error => .failed error context
  | .ok actions => perform tree enter file actions context

/-- Flattening a file, where `enter` flattens the files that it takes in. -/
def flattenOnce (tree : Tree) (enter : Entrance) : Entrance := fun path level context =>
  match tree.resolve path with
  | .error failure => .failed (.unreadable path failure) context
  | .ok location =>
    if context.includeStack.contains location then
      .failed (.circularInclude path (context.includeStack ++ [location])) context
    else (flattenEntered tree enter path level (context.enter location)).leave

theorem flattenWithin_succ (tree : Tree) (limit : Nat) :
    flattenWithin tree (limit + 1) = flattenOnce tree (flattenWithin tree limit) := by
  funext path level context
  rfl

theorem script_eq_ok_iff {tree : Tree} {language : Option Text} {file : Path} {level : Nat} {acts : List Action} :
    script tree language file level = .ok acts ↔
      ∃ lines, expandedLines? tree language file level = some lines ∧ acts = actions file level (pieces lines) := by
  simp only [expandedLines?_eq_some_iff, script]
  cases read : tree.readText file with
  | error failure => simp [Except.mapError, bind, Except.bind]
  | ok content =>
    cases localize : localizeFile tree language file (Text.lines content) with
    | error error => simp [Except.mapError, bind, Except.bind, localize]
    | ok pair =>
      obtain ⟨localized, notes⟩ := pair
      cases normal : normalize localized level with
      | error depth => simp [Except.mapError, bind, Except.bind, localize, normal]
      | ok lines =>
        simp [Except.mapError, bind, Except.bind, pure, Except.pure, localize, normal, eq_comm]

theorem flattenEntered_eq (tree : Tree) (file : Path) (level : Nat) (context : Context) :
    ∃ notes, visits notes = [(file, level)] ∧ ∀ enter, flattenEntered tree enter file level context =
      (runScript tree enter file (script tree context.language file level) context.countFile).noting notes := by
  have own (notes : List Note) (silent : visits notes = []) : visits (.flattening file level :: notes) = [(file, level)] := by
    change visits ([.flattening file level] ++ notes) = _
    rw [visits_append, silent]
    rfl
  simp only [flattenEntered, script]
  cases read : tree.readText file with
  | error failure => exact ⟨_, own [] rfl, fun _ => rfl⟩
  | ok content =>
    simp only [Except.mapError, bind, Except.bind, Context.countFile]
    cases localize : localizeFile tree context.language file (Text.lines content) with
    | error error => exact ⟨_, own [] rfl, fun _ => rfl⟩
    | ok pair =>
      obtain ⟨localized, notes⟩ := pair
      simp only [flattenLines]
      cases normal : normalize localized level with
      | error depth => exact ⟨_, own notes (localizeFile_silent localize), fun _ => by simp [runScript, Outcome.noting]⟩
      | ok lines =>
        refine ⟨_, own (notes ++ hierarchyNotes file localized level) ?_, fun enter => ?_⟩
        · rw [visits_append, localizeFile_silent localize, hierarchyNotes_silent, List.append_nil]
        · simp [expand_eq_perform, runScript, Outcome.noting, pure, Except.pure]

section
variable {tree : Tree} {path : Path} {context : Context} {location : Location}

theorem flattenOnce_of_unresolved {failure : Failure} (unresolved : tree.resolve path = .error failure)
    (enter : Entrance) (level : Nat) (context : Context) :
    flattenOnce tree enter path level context = .failed (.unreadable path failure) context := by
  simp only [flattenOnce, unresolved]

theorem flattenOnce_of_inside (resolved : tree.resolve path = .ok location) (inside : location ∈ context.includeStack)
    (enter : Entrance) (level : Nat) : flattenOnce tree enter path level context =
      .failed (.circularInclude path (context.includeStack ++ [location])) context := by
  simp only [flattenOnce, resolved, List.contains_iff_mem, if_pos inside]

theorem flattenOnce_of_outside (resolved : tree.resolve path = .ok location) (outside : location ∉ context.includeStack)
    (level : Nat) : ∃ notes, visits notes = [(path, level)] ∧ ∀ enter, flattenOnce tree enter path level context =
      ((runScript tree enter path (script tree context.language path level)
        (context.enter location).countFile).noting notes).leave := by
  obtain ⟨notes, own, entered⟩ := flattenEntered_eq tree path level (context.enter location)
  refine ⟨notes, own, fun enter => ?_⟩
  simp only [flattenOnce, resolved, List.contains_iff_mem, if_neg outside, entered]
  rfl

end

theorem flattenOnce_cases (tree : Tree) (path : Path) (level : Nat) (context : Context) :
    (∃ failure, tree.resolve path = .error failure ∧
      ∀ enter, flattenOnce tree enter path level context = .failed (.unreadable path failure) context) ∨
    (∃ location, tree.resolve path = .ok location ∧ location ∈ context.includeStack ∧
      ∀ enter, flattenOnce tree enter path level context =
        .failed (.circularInclude path (context.includeStack ++ [location])) context) ∨
    ∃ location notes, tree.resolve path = .ok location ∧ location ∉ context.includeStack ∧
      visits notes = [(path, level)] ∧
      ∀ enter, flattenOnce tree enter path level context =
        ((runScript tree enter path (script tree context.language path level)
          (context.enter location).countFile).noting notes).leave := by
  cases resolved : tree.resolve path with
  | error failure => exact .inl ⟨failure, rfl, fun enter => flattenOnce_of_unresolved resolved enter level context⟩
  | ok location =>
    by_cases inside : location ∈ context.includeStack
    · exact .inr (.inl ⟨location, rfl, inside, fun enter => flattenOnce_of_inside resolved inside enter level⟩)
    · obtain ⟨notes, own, entered⟩ := flattenOnce_of_outside resolved inside level
      exact .inr (.inr ⟨location, notes, rfl, inside, own, entered⟩)

end DocPress.Flatten
