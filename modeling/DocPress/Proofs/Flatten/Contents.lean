import DocPress.Proofs.Flatten.Guard

namespace DocPress.Flatten
open Text

/-! ## The way to the first toctree -/

/-- What a script writes before the first toctree that is met while it is performed, or none if none is met. -/
inductive Leads (tree : Tree) : Path → List Action → Context → Option (List Text) → Prop where
  | nil {file context} : Leads tree file [] context none
  | write {file lines rest context found} : Leads tree file rest context found →
      Leads tree file (.write lines :: rest) context (found.map (lines ++ ·))
  | meetToctree {file rest context} : Leads tree file (.meetToctree :: rest) context (some [])
  | within {file note reference level rest context location acts before} :
      tree.resolve (target file reference) = .ok location → location ∉ context.includeStack →
      script tree context.language (target file reference) level = .ok acts →
      Leads tree (target file reference) acts (context.enter location).countFile (some before) →
      Leads tree file (.takeIn note reference level :: rest) context (some before)
  | past {file note reference level rest context location acts lines found} :
      tree.resolve (target file reference) = .ok location → location ∉ context.includeStack →
      script tree context.language (target file reference) level = .ok acts →
      Leads tree (target file reference) acts (context.enter location).countFile none →
      (flattenFile tree (target file reference) level context).result = .ok lines →
      Leads tree file rest (flattenFile tree (target file reference) level context).context found →
      Leads tree file (.takeIn note reference level :: rest) context (found.map (lines ++ [[]] ++ ·))

/-- What a call writes before it meets a toctree, or none if it meets none. -/
inductive FirstToctree (tree : Tree) (call : Call) (found : Option (List Text)) : Prop where
  | of_script {location acts} : tree.resolve call.path = .ok location → location ∉ call.context.includeStack →
      script tree call.context.language call.path call.level = .ok acts →
      Leads tree call.path acts (call.context.enter location).countFile found → FirstToctree tree call found

section
variable {tree : Tree} {file : Path} {acts : List Action} {context : Context} {found other : Option (List Text)}

theorem Leads.unique (leads : Leads tree file acts context found) (again : Leads tree file acts context other) :
    other = found := by
  induction leads generalizing other with
  | nil =>
    cases again
    rfl
  | write _ ih =>
    cases again with
    | write again => rw [ih again]
  | meetToctree =>
    cases again
    rfl
  | within resolved _ found _ ih =>
    cases again with
    | within resolved' _ found' again =>
      obtain rfl := Except.ok.inj (resolved.symm.trans resolved')
      obtain rfl := Except.ok.inj (found.symm.trans found')
      exact ih again
    | past resolved' _ found' again =>
      obtain rfl := Except.ok.inj (resolved.symm.trans resolved')
      obtain rfl := Except.ok.inj (found.symm.trans found')
      cases ih again
  | past resolved _ found _ ok _ ih later =>
    cases again with
    | within resolved' _ found' again =>
      obtain rfl := Except.ok.inj (resolved.symm.trans resolved')
      obtain rfl := Except.ok.inj (found.symm.trans found')
      cases ih again
    | past _ _ _ _ ok' again =>
      obtain rfl := Except.ok.inj (ok.symm.trans ok')
      rw [later again]

theorem FirstToctree.unique {call : Call} (first : FirstToctree tree call found)
    (again : FirstToctree tree call other) : other = found := by
  obtain ⟨resolved, _, script, leads⟩ := first
  obtain ⟨resolved', _, script', leads'⟩ := again
  obtain rfl := Except.ok.inj (resolved.symm.trans resolved')
  obtain rfl := Except.ok.inj (script.symm.trans script')
  exact leads.unique leads'

end

/-! ## Two runs -/

def Context.marked (context : Context) : Context :=
  { context with tocInserted := true }

theorem Context.marked_of_inserted {context : Context} (inserted : context.tocInserted = true) :
    context.marked = context := by
  rw [marked, ← inserted]

inductive Compared (leads : Option (List Text) → Prop) (first second : Outcome) : Prop where
  | failed {error} : first.result = .error error → second.result = .error error →
      second.context = first.context.marked → Compared leads first second
  | unmet {lines} : leads none → first.result = .ok lines → second.result = .ok lines →
      first.context.tocInserted = false → second.context = first.context.marked → Compared leads first second
  | met {before after} : leads (some before) → first.result = .ok (before ++ contentsIsland ++ after) →
      second.result = .ok (before ++ after) → first.context.tocInserted = true → second.context = first.context →
      Compared leads first second

section
variable {leads more : Option (List Text) → Prop} {first second : Outcome}

theorem Compared.filesFlattened (compared : Compared leads first second) :
    second.context.filesFlattened = first.context.filesFlattened := by
  cases compared with
  | failed _ _ context => simp [context, Context.marked]
  | unmet _ _ _ _ context => simp [context, Context.marked]
  | met _ _ _ _ context => rw [context]

theorem Compared.mono (compared : Compared leads first second) (imp : ∀ found, leads found → more found) :
    Compared more first second := by
  cases compared with
  | failed result result' context => exact .failed result result' context
  | unmet here result result' inserted context => exact .unmet (imp _ here) result result' inserted context
  | met here result result' inserted context => exact .met (imp _ here) result result' inserted context

theorem Compared.noting (compared : Compared leads first second) (notes notes' : List Note) :
    Compared leads (first.noting notes) (second.noting notes') := by
  cases compared with
  | failed result result' context => exact .failed result result' context
  | unmet here result result' inserted context => exact .unmet here result result' inserted context
  | met here result result' inserted context => exact .met here result result' inserted context

theorem Compared.leave (compared : Compared leads first second) : Compared leads first.leave second.leave := by
  cases compared with
  | failed result result' context => exact .failed result result' (congrArg Context.leave context)
  | unmet here result result' inserted context =>
    exact .unmet here result result' inserted (congrArg Context.leave context)
  | met here result result' inserted context =>
    exact .met here result result' inserted (congrArg Context.leave context)

theorem Compared.prepend (compared : Compared leads first second) (lines : List Text)
    (imp : ∀ found, leads found → more (found.map (lines ++ ·))) :
    Compared more (first.prepend lines) (second.prepend lines) := by
  cases compared with
  | @failed error result result' context =>
    have failed : (first.prepend lines).result = .error error := by
      rw [Outcome.result_prepend_eq, result]
      rfl
    have failed' : (second.prepend lines).result = .error error := by
      rw [Outcome.result_prepend_eq, result']
      rfl
    exact .failed failed failed' context
  | @unmet own here result result' inserted context =>
    have written : (first.prepend lines).result = .ok (lines ++ own) := by
      rw [Outcome.result_prepend_eq, result]
      rfl
    have written' : (second.prepend lines).result = .ok (lines ++ own) := by
      rw [Outcome.result_prepend_eq, result']
      rfl
    exact .unmet (imp _ here) written written' inserted context
  | @met before after here result result' inserted context =>
    have written : (first.prepend lines).result = .ok (lines ++ before ++ contentsIsland ++ after) := by
      rw [Outcome.result_prepend_eq, result]
      simp [Except.map]
    have written' : (second.prepend lines).result = .ok (lines ++ before ++ after) := by
      rw [Outcome.result_prepend_eq, result']
      simp [Except.map]
    exact .met (imp _ here) written written' inserted context

theorem Compared.followedBy {below : Option (List Text) → Prop} (compared : Compared leads first second)
    {next : Context → Outcome} (keeps : ∀ context, context.tocInserted = true → (next context).context.tocInserted = true)
    (later : ∀ lines, leads none → first.result = .ok lines → first.context.tocInserted = false →
      Compared below (next first.context) (next first.context.marked))
    (here : ∀ before, leads (some before) → more (some before))
    (there : ∀ lines found, leads none → first.result = .ok lines → below found → more (found.map (lines ++ ·))) :
    Compared more (first.followedBy next) (second.followedBy next) := by
  cases compared with
  | failed result result' context =>
    rw [Outcome.followedBy_of_error result, Outcome.followedBy_of_error result']
    exact .failed result result' context
  | @unmet lines unmet result result' inserted context =>
    have below : Compared more _ _ :=
      (later lines unmet result inserted).prepend lines fun found => there lines found unmet result
    obtain ⟨outcome, last, _⟩ := @Outcome.followedBy_of_ok _ next _ result
    obtain ⟨outcome', last', _⟩ := @Outcome.followedBy_of_ok _ next _ result'
    rw [context] at outcome' last'
    cases below with
    | failed below below' context => exact .failed (outcome.trans below) (outcome'.trans below') (by rw [last, last']; exact context)
    | unmet found below below' inserted context =>
      exact .unmet found (outcome.trans below) (outcome'.trans below') (last ▸ inserted) (by rw [last, last']; exact context)
    | met found below below' inserted context =>
      exact .met found (outcome.trans below) (outcome'.trans below') (last ▸ inserted) (by rw [last, last']; exact context)
  | @met before after met result result' inserted context =>
    obtain ⟨outcome, last, _⟩ := @Outcome.followedBy_of_ok _ next _ result
    obtain ⟨outcome', last', _⟩ := @Outcome.followedBy_of_ok _ next _ result'
    rw [context] at outcome' last'
    have marked := keeps _ inserted
    cases below : (next first.context).result with
    | error error =>
      rw [below] at outcome outcome'
      exact .failed outcome outcome' (by rw [last, last', Context.marked_of_inserted marked])
    | ok rest =>
      rw [below] at outcome outcome'
      have written : (first.followedBy next).result = .ok (before ++ contentsIsland ++ (after ++ rest)) := by
        simpa [Except.map] using outcome
      have written' : (second.followedBy next).result = .ok (before ++ (after ++ rest)) := by
        simpa [Except.map] using outcome'
      exact .met (here before met) written written' (last ▸ marked) (by rw [last, last'])

end

section
variable {tree : Tree} {enter : Entrance} {file : Path} {acts : List Action} {context : Context}

theorem inserted_perform (restores : enter.Restores) (inserted : context.tocInserted = true) :
    (perform tree enter file acts context).context.tocInserted = true :=
  (later_perform restores acts context).tocInserted inserted

theorem compared_meetToctree (restores : enter.Restores) {rest : List Action} (unmet : context.tocInserted = false) :
    Compared (fun found => found = some []) (perform tree enter file (.meetToctree :: rest) context)
      (perform tree enter file (.meetToctree :: rest) context.marked) := by
  have first : perform tree enter file (.meetToctree :: rest) context =
      ((perform tree enter file rest context.marked).prepend contentsIsland).noting [.contentsInserted file] := by
    rw [perform, act, unmet, if_neg Bool.false_ne_true, Outcome.noting_followedBy, Outcome.done_followedBy]
    rfl
  have second : perform tree enter file (.meetToctree :: rest) context.marked =
      perform tree enter file rest context.marked := by
    rw [perform, act, Context.marked, if_pos rfl, Outcome.done_followedBy, Outcome.prepend_nil]
  have inserted : (perform tree enter file rest context.marked).context.tocInserted = true :=
    inserted_perform restores rfl
  have written : ((perform tree enter file rest context.marked).prepend contentsIsland).result =
      (perform tree enter file rest context.marked).result.map (contentsIsland ++ ·) := Outcome.result_prepend_eq _ _
  rw [first, second]
  cases result : (perform tree enter file rest context.marked).result with
  | error error =>
    rw [result] at written
    exact .failed written result (Context.marked_of_inserted inserted).symm
  | ok lines =>
    rw [result] at written
    exact .met rfl written result inserted rfl

end

section
variable {tree : Tree} {file : Path} {acts : List Action} {context : Context} {call : Call}

theorem compared_perform (unmet : context.tocInserted = false)
    (calls : ∀ call, Asks tree (flattenFile tree) file acts context call → call.context.tocInserted = false →
      Compared (FirstToctree tree call) (Entrance.on (flattenFile tree) call)
        (flattenFile tree call.path call.level call.context.marked)) :
    Compared (Leads tree file acts context) (perform tree (flattenFile tree) file acts context)
      (perform tree (flattenFile tree) file acts context.marked) := by
  induction acts generalizing context with
  | nil => exact .unmet .nil rfl rfl unmet rfl
  | cons action rest ih =>
    cases action with
    | write lines =>
      rw [perform, perform, act, act, Outcome.done_followedBy, Outcome.done_followedBy]
      exact (ih unmet fun call asks => calls call (.later rfl asks)).prepend lines fun _ leads => .write leads
    | meetToctree =>
      exact (compared_meetToctree (restores_flattenFile tree) unmet).mono fun found here => here ▸ Leads.meetToctree
    | stop error => exact .failed rfl rfl rfl
    | takeIn note reference level =>
      cases isFile : tree.isFile (target file reference) with
      | false =>
        rw [perform_takeIn_missing tree _ file isFile, perform_takeIn_missing tree _ file isFile]
        exact .failed rfl rfl rfl
      | true =>
        rw [perform_takeIn tree _ file isFile, perform_takeIn tree _ file isFile]
        -- the first toctree is met inside the file that is taken in, or behind it
        have taken := calls _ (.here isFile) unmet
        let below (found : Option (List Text)) : Prop := ∃ more, found = more.map ([[]] ++ ·) ∧
          Leads tree file rest (flattenFile tree (target file reference) level context).context more
        refine (@Compared.followedBy _ _ _ _ below taken _ ?_ ?_ ?_ ?_).noting [note] [note]
        · intro context inserted
          exact inserted_perform (restores_flattenFile tree) inserted
        · intro lines none ok after
          have ok : (flattenFile tree (target file reference) level context).result = .ok lines := ok
          obtain ⟨result, left⟩ := @act_takeIn tree (flattenFile tree) file note reference level context isFile
          rw [ok] at result
          have below := ih after fun call asks => calls call (.later result (left.symm ▸ asks))
          exact below.prepend [[]] fun found leads => ⟨found, rfl, leads⟩
        · rintro before ⟨resolved, outside, found, leads⟩
          exact .within resolved outside found leads
        · rintro lines _ ⟨resolved, outside, found, leads⟩ ok ⟨more, rfl, rest⟩
          have joined : (more.map ([[]] ++ ·)).map (lines ++ ·) = more.map (lines ++ [[]] ++ ·) := by
            simp [Option.map_map, Function.comp_def]
          rw [joined]
          exact .past resolved outside found leads ok rest

theorem compared_flattenFile (unmet : call.context.tocInserted = false) :
    Compared (FirstToctree tree call) (Entrance.on (flattenFile tree) call)
      (flattenFile tree call.path call.level call.context.marked) := by
  induction call using (wellFounded_makes tree (restores_flattenFile tree)).induction with
  | _ call ih =>
    have first : Entrance.on (flattenFile tree) call =
        flattenOnce tree (flattenFile tree) call.path call.level call.context :=
      congrArg (Entrance.on · call) (flattenFile_eq_flattenOnce tree)
    have second : flattenFile tree call.path call.level call.context.marked =
        flattenOnce tree (flattenFile tree) call.path call.level call.context.marked :=
      congrFun (congrFun (congrFun (flattenFile_eq_flattenOnce tree) _) _) _
    rw [first, second]
    cases resolved : tree.resolve call.path with
    | error failure =>
      rw [flattenOnce_of_unresolved resolved, flattenOnce_of_unresolved resolved]
      exact .failed rfl rfl rfl
    | ok location =>
      by_cases inside : location ∈ call.context.includeStack
      · rw [flattenOnce_of_inside resolved inside, @flattenOnce_of_inside _ _ call.context.marked _ resolved inside]
        exact .failed rfl rfl rfl
      · obtain ⟨notes, _, entered⟩ := flattenOnce_of_outside resolved inside call.level
        obtain ⟨notes', _, entered'⟩ := @flattenOnce_of_outside _ _ call.context.marked _ resolved inside call.level
        rw [entered, entered']
        refine (Compared.noting ?_ notes notes').leave
        change Compared _ (runScript _ _ _ (script tree call.context.language call.path call.level) _)
          (runScript _ _ _ (script tree call.context.language call.path call.level) _)
        cases found : script tree call.context.language call.path call.level with
        | error error => exact .failed rfl rfl rfl
        | ok acts =>
          have unmet : (call.context.enter location).countFile.tocInserted = false := unmet
          have performed := compared_perform unmet fun inner asks unmet => ih inner (.of_script resolved inside found asks) unmet
          exact performed.mono fun leads here => .of_script resolved inside found here

end

/-! ## With and without -/

/-- How the lines of a run that puts in the table of contents stand to those of one that does not, where the run meets
its first toctree behind the lines that `first` gives, or none. -/
def Differ (first : Option (List Text)) (inserted : Bool) (lines others : List Text) : Prop :=
  match first with
  | none => inserted = false ∧ lines = others
  | some before => inserted = true ∧ ∃ after, lines = before ++ contentsIsland ++ after ∧ others = before ++ after

/-- Putting in the table of contents changes nothing but the lines: it adds the six lines of the contents island in
one place, behind all that is written before the first toctree, if one is met. -/
theorem flattenFile_contents (tree : Tree) (path : Path) (level : Nat) (context : Context) :
    let unmarked := { context with tocInserted := false }
    let first := flattenFile tree path level unmarked
    let second := flattenFile tree path level { context with tocInserted := true }
    contentsIsland.length = 6 ∧ first.context.filesFlattened = second.context.filesFlattened ∧
      ((∃ error, first.result = .error error ∧ second.result = .error error) ∨
        ∃ lines others found, first.result = .ok lines ∧ second.result = .ok others ∧
          (∀ other, FirstToctree tree ⟨path, level, unmarked⟩ other ↔ other = found) ∧
          Differ found first.context.tocInserted lines others) := by
  intro unmarked first second
  have compared : Compared (FirstToctree tree ⟨path, level, unmarked⟩) first second :=
    @compared_flattenFile tree ⟨path, level, unmarked⟩ rfl
  have only {found} (here : FirstToctree tree ⟨path, level, unmarked⟩ found) (other) :
      FirstToctree tree ⟨path, level, unmarked⟩ other ↔ other = found :=
    ⟨here.unique, fun same => same ▸ here⟩
  refine ⟨rfl, compared.filesFlattened.symm, ?_⟩
  cases compared with
  | failed result result' => exact .inl ⟨_, result, result'⟩
  | unmet here result result' inserted => exact .inr ⟨_, _, none, result, result', only here, inserted, rfl⟩
  | met here result result' inserted => exact .inr ⟨_, _, some _, result, result', only here, inserted, _, rfl, rfl⟩

def bareToctree : Tree where
  entries := [(["index.rst".toList], .text ".. toctree::\n".toList)]

theorem flattenFile_contents_not_five :
    ¬∀ (tree : Tree) (path : Path) (level : Nat) (context : Context) (lines others : List Text),
      (flattenFile tree path level { context with tocInserted := false }).result = .ok lines →
      (flattenFile tree path level { context with tocInserted := true }).result = .ok others →
      (flattenFile tree path level { context with tocInserted := false }).context.tocInserted = true →
      lines.length = others.length + 5 := by
  intro five
  have longer := five bareToctree "index.rst".toList 0 {} contentsIsland [] (by decide +kernel) (by decide +kernel)
    (by decide +kernel)
  cases longer

end DocPress.Flatten
