import DocPress.Proofs.Flatten.Script

namespace DocPress.Flatten
open Text

/-! ## The context of a run -/

structure Context.Later (first second : Context) : Prop where
  includeStack : second.includeStack = first.includeStack
  language : second.language = first.language
  tocInserted : first.tocInserted = true → second.tocInserted = true

theorem Context.Later.refl (context : Context) : context.Later context :=
  ⟨rfl, rfl, id⟩

theorem Context.Later.trans {first second third : Context} (before : first.Later second)
    (after : second.Later third) : first.Later third :=
  ⟨after.1.trans before.1, after.2.trans before.2, after.3 ∘ before.3⟩

def Entrance.Restores (enter : Entrance) : Prop :=
  ∀ path level (context : Context), context.Later (enter path level context).context

theorem Outcome.later_followedBy {outcome : Outcome} {next : Context → Outcome} {context : Context}
    (first : context.Later outcome.context) (second : outcome.context.Later (next outcome.context).context) :
    context.Later (outcome.followedBy next).context := by
  cases result : outcome.result with
  | error error => rwa [Outcome.followedBy_of_error result]
  | ok lines =>
    rw [(Outcome.followedBy_of_ok result).2.1]
    exact first.trans second

section
variable {tree : Tree} {enter : Entrance} {file : Path}

theorem later_act (restores : enter.Restores) (action : Action) (context : Context) :
    context.Later (act tree enter file action context).context := by
  cases action with
  | write lines => exact .refl context
  | meetToctree =>
    rw [act]
    split
    · exact .refl context
    · exact ⟨rfl, rfl, fun _ => rfl⟩
  | takeIn note reference level =>
    rw [act, Outcome.noting]
    refine Outcome.later_followedBy ?_ (.refl _)
    rw [takeIn]
    split
    · exact restores _ _ _
    · exact .refl context
  | stop error => exact .refl context

theorem later_perform (restores : enter.Restores) (acts : List Action) (context : Context) :
    context.Later (perform tree enter file acts context).context := by
  induction acts generalizing context with
  | nil => exact .refl context
  | cons action rest ih => exact Outcome.later_followedBy (later_act restores action context) (ih _)

theorem restores_flattenOnce (restores : enter.Restores) : (flattenOnce tree enter).Restores := by
  intro path level context
  rcases flattenOnce_cases tree path level context with
    ⟨_, _, equal⟩ | ⟨_, _, _, equal⟩ | ⟨location, notes, _, _, _, equal⟩
  · rw [equal]
    exact .refl context
  · rw [equal]
    exact .refl context
  · rw [equal]
    have inside : (context.enter location).Later
        (runScript tree enter path (script tree context.language path level) (context.enter location).countFile).context := by
      have counted : (context.enter location).Later (context.enter location).countFile := ⟨rfl, rfl, id⟩
      cases script tree context.language path level with
      | error error => exact counted
      | ok acts => exact counted.trans (later_perform restores acts _)
    refine ⟨?_, inside.language, inside.tocInserted⟩
    -- the file that was entered is the last of the files in progress
    change (runScript _ _ _ _ _).context.includeStack.dropLast = _
    rw [inside.includeStack]
    exact List.dropLast_concat

end

theorem restores_flattenWithin (tree : Tree) (limit : Nat) : (flattenWithin tree limit).Restores := by
  induction limit with
  | zero => exact fun _ _ context => .refl context
  | succ limit ih =>
    rw [flattenWithin_succ]
    exact restores_flattenOnce ih

theorem restores_flattenFile (tree : Tree) : Entrance.Restores (flattenFile tree) :=
  restores_flattenWithin tree _

/-! ## Calls -/

structure Call where
  path : Path
  level : Nat
  context : Context
deriving DecidableEq

def Entrance.on (enter : Entrance) (call : Call) : Outcome :=
  enter call.path call.level call.context

abbrev target (file : Path) (reference : Text) : Path :=
  file.directory.join (trim reference)

section
variable (tree : Tree) (enter : Entrance) {file : Path} (note : Note) {reference : Text} {level : Nat} {context : Context}

theorem act_takeIn (isFile : tree.isFile (target file reference) = true) :
    (act tree enter file (.takeIn note reference level) context).result =
        (enter (target file reference) level context).result.map (· ++ [[]]) ∧
      (act tree enter file (.takeIn note reference level) context).context =
        (enter (target file reference) level context).context := by
  rw [act, takeIn, isFile, if_pos rfl]
  cases called : (enter (target file reference) level context).result with
  | error error =>
    rw [Outcome.followedBy_of_error called]
    exact ⟨called, rfl⟩
  | ok lines =>
    obtain ⟨result, left, _⟩ := @Outcome.followedBy_of_ok _ (.done [[]]) _ called
    exact ⟨result, left⟩

theorem act_takeIn_missing (missing : tree.isFile (target file reference) = false) :
    (act tree enter file (.takeIn note reference level) context).result =
      .error (.missingFile (target file reference) file) := by
  rw [act, takeIn, missing]
  rfl

end

inductive Asks (tree : Tree) (enter : Entrance) (file : Path) : List Action → Context → Call → Prop where
  | here {note reference level rest context} : tree.isFile (target file reference) = true →
      Asks tree enter file (.takeIn note reference level :: rest) context ⟨target file reference, level, context⟩
  | later {action rest context lines call} : (act tree enter file action context).result = .ok lines →
      Asks tree enter file rest (act tree enter file action context).context call →
      Asks tree enter file (action :: rest) context call

/-- A call makes those calls that the script of its file asks for, if it comes to it. -/
inductive Makes (tree : Tree) (enter : Entrance) (outer inner : Call) : Prop where
  | of_script {location acts} : tree.resolve outer.path = .ok location → location ∉ outer.context.includeStack →
      script tree outer.context.language outer.path outer.level = .ok acts →
      Asks tree enter outer.path acts (outer.context.enter location).countFile inner → Makes tree enter outer inner

section
variable {tree : Tree} {enter other : Entrance} {file : Path} {acts : List Action} {context : Context}
  {call outer inner : Call}

theorem Asks.context_later (asks : Asks tree enter file acts context call) (restores : enter.Restores) :
    context.Later call.context := by
  induction asks with
  | here => exact .refl _
  | later _ _ ih => exact (later_act restores _ _).trans ih

theorem Asks.exists_action (asks : Asks tree enter file acts context call) :
    ∃ note reference, .takeIn note reference call.level ∈ acts ∧ call.path = target file reference ∧
      tree.isFile call.path = true := by
  induction asks with
  | here isFile => exact ⟨_, _, List.mem_cons_self, rfl, isFile⟩
  | later _ _ ih =>
    obtain ⟨note, reference, member, path, isFile⟩ := ih
    exact ⟨note, reference, List.mem_cons_of_mem _ member, path, isFile⟩

theorem act_congr {action : Action} {rest : List Action}
    (same : ∀ call, Asks tree enter file (action :: rest) context call → other.on call = enter.on call) :
    act tree other file action context = act tree enter file action context := by
  cases action with
  | write | meetToctree | stop => rfl
  | takeIn note reference level =>
    rw [act, act, takeIn, takeIn]
    cases isFile : tree.isFile (file.directory.join (trim reference)) with
    | false => rfl
    | true =>
      have called : other _ level context = enter _ level context := same _ (.here isFile)
      simp only [if_true, called]

theorem perform_congr (same : ∀ call, Asks tree enter file acts context call → other.on call = enter.on call) :
    perform tree other file acts context = perform tree enter file acts context := by
  induction acts generalizing context with
  | nil => rfl
  | cons action rest ih =>
    rw [perform, perform, act_congr same]
    cases result : (act tree enter file action context).result with
    | error error => rw [Outcome.followedBy_of_error result, Outcome.followedBy_of_error result]
    | ok lines =>
      have below := ih fun call asks => same call (.later result asks)
      simp only [Outcome.followedBy, Outcome.andThen, result, below]

theorem flattenOnce_congr (same : ∀ inner, Makes tree enter outer inner → other.on inner = enter.on inner) :
    (flattenOnce tree other).on outer = (flattenOnce tree enter).on outer := by
  rw [Entrance.on, Entrance.on]
  rcases flattenOnce_cases tree outer.path outer.level outer.context with
    ⟨_, _, equal⟩ | ⟨_, _, _, equal⟩ | ⟨location, notes, resolved, outside, _, equal⟩
  · rw [equal, equal]
  · rw [equal, equal]
  · rw [equal, equal]
    cases found : script tree outer.context.language outer.path outer.level with
    | error error => rfl
    | ok acts =>
      rw [runScript, runScript, perform_congr fun inner asks => same inner (.of_script resolved outside found asks)]

/-! ## Where an error comes from -/

def Error.IsReading : Error → Prop
  | .unreadable .. => True
  | .missingCatalog .. => True
  | .headingTooDeep .. => True
  | _ => False

theorem isReading_of_localizeFile {language : Option Text} {lines : List Text} {error : Error}
    (failed : localizeFile tree language file lines = .error error) : error.IsReading := by
  cases language with
  | none => cases failed
  | some language =>
    simp only [localizeFile] at failed
    split at failed
    · cases failed
      trivial
    · split at failed
      · cases failed
        trivial
      · cases failed

theorem isReading_of_script {language : Option Text} {level : Nat} {error : Error}
    (failed : script tree language file level = .error error) : error.IsReading := by
  rw [script] at failed
  cases read : tree.readText file with
  | error failure =>
    rw [read] at failed
    cases failed
    trivial
  | ok content =>
    simp only [read, Except.mapError, bind, Except.bind] at failed
    cases localize : localizeFile tree language file (Text.lines content) with
    | error raised =>
      simp only [localize, Except.error.injEq] at failed
      exact failed ▸ isReading_of_localizeFile localize
    | ok pair =>
      obtain ⟨localized, notes⟩ := pair
      simp only [localize] at failed
      cases normal : Heading.normalize localized level with
      | error depth =>
        simp only [normal, Except.error.injEq] at failed
        rw [← failed]
        trivial
      | ok lines => simp [normal, pure, Except.pure] at failed

theorem error_of_stop_mem_actions {level : Nat} {pieces : List Piece} {error : Error}
    (member : .stop error ∈ actions file level pieces) :
    (∃ number line, .inclusion number line none ∈ pieces ∧ error = .directiveWithoutTarget file number line) ∨
      ∃ depth, error = .headingTooDeep file depth := by
  induction pieces generalizing level with
  | nil => cases member
  | cons piece rest ih =>
    rcases List.mem_append.mp member with own | below
    · cases piece with
      | underline marker line => simp [Piece.actions] at own
      | plain line => simp [Piece.actions] at own
      | inclusion number line target =>
        cases target with
        | none => exact .inl ⟨number, line, List.mem_cons_self, by simpa [Piece.actions] using own⟩
        | some target => simp [Piece.actions] at own
      | toctree options entries =>
        refine .inr ⟨level, ?_⟩
        simp only [Piece.actions, captionActions, entryAction, List.mem_append, List.mem_cons, List.mem_map,
          reduceCtorEq, and_false, exists_false, or_false, false_or] at own
        split at own
        · cases own
        · split at own
          · simpa using own
          · simp at own
    · rcases ih below with ⟨number, line, among, equal⟩ | deep
      · exact .inl ⟨number, line, List.mem_cons_of_mem _ among, equal⟩
      · exact .inr deep

/-- The errors that a call raises on its own account. -/
inductive Raises (tree : Tree) (call : Call) : Error → Prop where
  | unresolved {failure} : tree.resolve call.path = .error failure → Raises tree call (.unreadable call.path failure)
  | circular {location} : tree.resolve call.path = .ok location → location ∈ call.context.includeStack →
      Raises tree call (.circularInclude call.path (call.context.includeStack ++ [location]))
  | unscripted {error} : script tree call.context.language call.path call.level = .error error → Raises tree call error
  | untargeted {lines number shown} :
      expandedLines? tree call.context.language call.path call.level = some lines →
      .inclusion number shown none ∈ pieces lines → Raises tree call (.directiveWithoutTarget call.path number shown)
  | tooDeep {acts depth} : script tree call.context.language call.path call.level = .ok acts →
      .stop (.headingTooDeep call.path depth) ∈ acts → Raises tree call (.headingTooDeep call.path depth)
  | missing {acts note reference level} : script tree call.context.language call.path call.level = .ok acts →
      .takeIn note reference level ∈ acts → tree.isFile (target call.path reference) = false →
      Raises tree call (.missingFile (target call.path reference) call.path)

theorem error_of_perform {error : Error} (failed : (perform tree enter file acts context).result = .error error) :
    .stop error ∈ acts ∨
      (∃ note reference level, .takeIn note reference level ∈ acts ∧ tree.isFile (target file reference) = false ∧
        error = .missingFile (target file reference) file) ∨
      ∃ call, Asks tree enter file acts context call ∧ (enter.on call).result = .error error := by
  induction acts generalizing context with
  | nil => cases failed
  | cons action rest ih =>
    rw [perform] at failed
    cases result : (act tree enter file action context).result with
    | ok lines =>
      rw [(Outcome.followedBy_of_ok result).1] at failed
      cases below : (perform tree enter file rest (act tree enter file action context).context).result with
      | ok more => simp [below, Except.map] at failed
      | error raised =>
        obtain rfl : raised = error := by simpa [below, Except.map] using failed
        rcases ih below with stop | ⟨note, reference, level, member, missing⟩ | ⟨call, asks, called⟩
        · exact .inl (List.mem_cons_of_mem _ stop)
        · exact .inr (.inl ⟨note, reference, level, List.mem_cons_of_mem _ member, missing⟩)
        · exact .inr (.inr ⟨call, .later result asks, called⟩)
    | error raised =>
      rw [Outcome.followedBy_of_error result, result] at failed
      cases failed
      cases action with
      | write lines => cases result
      | meetToctree =>
        rw [act] at result
        split at result <;> cases result
      | stop raised =>
        cases result
        exact .inl List.mem_cons_self
      | takeIn note reference level =>
        cases isFile : tree.isFile (target file reference) with
        | false =>
          rw [act_takeIn_missing tree enter note isFile] at result
          cases result
          exact .inr (.inl ⟨note, reference, level, List.mem_cons_self, isFile, rfl⟩)
        | true =>
          rw [(act_takeIn tree enter note isFile).1] at result
          refine .inr (.inr ⟨_, .here isFile, ?_⟩)
          change (enter (target file reference) level context).result = .error error
          cases called : (enter (target file reference) level context).result with
          | error raised => simpa [called, Except.map] using result
          | ok lines => simp [called, Except.map] at result

theorem raises_or_makes {error : Error} (failed : ((flattenOnce tree enter).on outer).result = .error error) :
    Raises tree outer error ∨ ∃ inner, Makes tree enter outer inner ∧ (enter.on inner).result = .error error := by
  rw [Entrance.on] at failed
  rcases flattenOnce_cases tree outer.path outer.level outer.context with
    ⟨_, unresolved, equal⟩ | ⟨location, resolved, inside, equal⟩ | ⟨location, notes, resolved, outside, _, equal⟩
  · rw [equal] at failed
    cases failed
    exact .inl (.unresolved unresolved)
  · rw [equal] at failed
    cases failed
    exact .inl (.circular resolved inside)
  · rw [equal] at failed
    change (runScript _ _ _ _ _).result = _ at failed
    cases found : script tree outer.context.language outer.path outer.level with
    | error raised =>
      rw [found] at failed
      cases failed
      exact .inl (.unscripted found)
    | ok acts =>
      rw [found] at failed
      rcases error_of_perform failed with stop | ⟨_, _, _, member, missing, rfl⟩ | ⟨inner, asks, called⟩
      · obtain ⟨lines, expanded, rfl⟩ := script_eq_ok_iff.mp found
        rcases error_of_stop_mem_actions stop with ⟨_, _, untargeted, rfl⟩ | ⟨_, rfl⟩
        · exact .inl (.untargeted expanded untargeted)
        · exact .inl (.tooDeep found stop)
      · exact .inl (.missing found member missing)
      · exact .inr ⟨inner, .of_script resolved outside found asks, called⟩

end

end DocPress.Flatten
