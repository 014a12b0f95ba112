import DocPress.Proofs.Latex.Single
import DocPress.Proofs.Run.Single
import DocPress.Proofs.Tree.Written

/-!
# A run is all or nothing

Only the last stage of a run writes, and it writes in full or not at all. So a run that fails leaves its tree as it was,
and one that succeeds changes one file, whose text is made from the tree as it was before (`process_all_or_nothing`).
What a run tells while it goes on and what it reports at its end agree.
-/

namespace DocPress.Run
open Text Document Markup

/-! ## What the stages after flattening make of lines -/

section
variable (job : Job) (lines : List Text)

abbrev inlined : List Text :=
  Contents.inlineListed job.settings.contentsTitles
    (substitute (placeholders job.appName job.version job.settings) lines)

abbrev elements : List Element :=
  Document.parse (inlined job lines)

abbrev entries : List Text :=
  Latex.renderLines (style job.settings) {} (elements job lines)

abbrev text : Text :=
  Latex.render (style job.settings) {} (elements job lines)

def eventsBefore (files : Nat) (stats : Stats) : List Event :=
  [.stageStarted 1, .flattened files lines.length, .stageStarted 2,
    .substituted (2 + job.settings.placeholders.length), .stageStarted 3,
    .contentsInlined job.settings.contentsTitles.length, .stageStarted 4, .parsed (elements job lines).length stats,
    .stageStarted 5]

end

def Job.values (job : Job) : List Text :=
  job.appName :: job.version :: job.settings.placeholders.map Prod.snd ++ (style job.settings).texts

theorem labels_inlined (job : Job) (lines : List Text) :
    (Stats.of (elements job lines)).labels = (inlined job lines).countP fun line => (anchor? line).isSome := by
  -- Labels are parsed from trimmed lines, but a line is a label whether it is trimmed or not.
  have trimmed : ∀ line, anchor? (trimEnd line) = anchor? line := fun line => by
    rw [anchor?, trimEnd_trimEnd, anchor?]
  rw [labels_of, elements, anchors_parse, List.filterMap_map, List.length_filterMap_eq_countP]
  simp only [Function.comp_apply, trimmed]

theorem length_lines_text {job : Job} {lines : List Text} (single : ∀ line ∈ lines, '\n' ∉ line)
    (plain : ∀ value ∈ job.values, '\n' ∉ value) :
    (Text.lines (text job lines)).length = (entries job lines).length - 1 := by
  have styled : ∀ t ∈ (style job.settings).texts, '\n' ∉ t := fun t member =>
    plain t (List.mem_append_right _ member)
  have replaced : ∀ value ∈ placeholders job.appName job.version job.settings, '\n' ∉ value.2 := by
    intro value member
    have held : value.2 ∈ job.appName :: job.version :: job.settings.placeholders.map Prod.snd :=
      List.mem_map_of_mem member
    exact plain _ (List.mem_append_left _ held)
  refine Latex.length_lines_render styled (single_texts ?_) {}
  exact Contents.single_inlineListed (single_substitute replaced single) _

/-! ## How a run ends -/

section
variable {tree : Tree} {job : Job} {lines : List Text}

theorem process_of_error {error : Flatten.Error}
    (failed : (Flatten.flattenTree tree job.input (.new job.language)).result = .error error) :
    ∃ notes, process tree job = ⟨.error (.flattening error), [.stageStarted 1], notes, tree⟩ := by
  unfold process
  simp only [failed]
  exact ⟨_, rfl⟩

variable (flattened : (Flatten.flattenTree tree job.input (.new job.language)).result = .ok lines)
include flattened

theorem process_of_unwritable {failure : Failure}
    (failed : tree.writeText job.output (text job lines) = .error failure) :
    ∃ notes, process tree job = ⟨.error (.unwritable job.output failure),
      eventsBefore job lines (Flatten.flattenTree tree job.input (.new job.language)).context.filesFlattened
        (Stats.of (elements job lines)), notes, tree⟩ := by
  unfold process
  simp only [flattened]
  have failed : tree.writeText job.output (prepare job.appName job.version job.settings lines).text = .error failure :=
    failed
  rw [failed]
  exact ⟨_, rfl⟩

theorem process_of_written {written : Tree} (done : tree.writeText job.output (text job lines) = .ok written) :
    ∃ summary events notes, process tree job = ⟨.ok summary, events, notes, written⟩ ∧
      events = eventsBefore job lines summary.filesFlattened summary.stats ++ [.written job.output summary.footnotes] ∧
      summary.filesFlattened = (Flatten.flattenTree tree job.input (.new job.language)).context.filesFlattened ∧
      summary.stats = Stats.of (elements job lines) ∧
      summary.footnotes = (Latex.finalCounter {} (elements job lines)).value ∧
      summary.linesWritten = (Text.lines (text job lines)).length := by
  unfold process
  simp only [flattened]
  have done : tree.writeText job.output (prepare job.appName job.version job.settings lines).text = .ok written := done
  rw [done]
  exact ⟨_, _, _, rfl, rfl, rfl, rfl, rfl, rfl⟩

end

/-- A run that fails leaves its tree as it was. One that succeeds writes what the stages make of the tree it started
with, and changes nothing else. -/
theorem process_all_or_nothing (tree : Tree) (job : Job) :
    let flat := Flatten.flattenTree tree job.input (.new job.language)
    let report := process tree job
    match report.result with
    | .error (.flattening error) =>
      flat.result = .error error ∧ report.tree = tree ∧ report.events = [.stageStarted 1]
    | .error (.unwritable path failure) => ∃ lines, flat.result = .ok lines ∧ path = job.output ∧
      tree.writeText path (text job lines) = .error failure ∧ report.tree = tree ∧
      report.events = eventsBefore job lines flat.context.filesFlattened (Stats.of (elements job lines))
    | .ok summary => ∃ lines, flat.result = .ok lines ∧
      tree.Writes job.output (text job lines) report.tree ∧
      report.events = eventsBefore job lines summary.filesFlattened summary.stats ++
        [.written job.output summary.footnotes] ∧
      summary.filesFlattened = flat.context.filesFlattened ∧ summary.stats = Stats.of (elements job lines) ∧
      summary.footnotes = ((elements job lines).flatMap Latex.footnotesOf).length ∧
      summary.stats.labels = ((inlined job lines).countP fun line => (anchor? line).isSome) ∧
      ((∀ value ∈ job.values, '\n' ∉ value) → summary.linesWritten = (entries job lines).length - 1) := by
  intro flat report
  cases flattened : flat.result with
  | error error =>
    obtain ⟨notes, ended⟩ := process_of_error flattened
    rw [show report = _ from ended]
    exact ⟨rfl, rfl, rfl⟩
  | ok lines =>
    cases done : tree.writeText job.output (text job lines) with
    | error failure =>
      obtain ⟨notes, ended⟩ := process_of_unwritable flattened done
      rw [show report = _ from ended]
      exact ⟨lines, rfl, rfl, done, rfl, rfl⟩
    | ok written =>
      obtain ⟨summary, events, notes, ended, told, files, stats, footnotes, length⟩ := process_of_written flattened done
      rw [show report = _ from ended]
      refine ⟨lines, rfl, Tree.writes_of_writeText done, told, files, stats, ?_, ?_, fun plain => ?_⟩
      · rw [footnotes, Latex.value_finalCounter]
        exact Nat.zero_add _
      · rw [stats, labels_inlined]
      · rw [length, length_lines_text (Flatten.single_flattenTree flattened) plain]

def overwriting : Job where
  input := "index.rst".toList
  output := "two.rst".toList
  appName := "Handbook".toList
  version := "1.0".toList

theorem process_all_or_nothing_overwriting : ∃ summary lines,
    (process Flatten.handbook overwriting).result = .ok summary ∧
      Flatten.handbook.Writes "two.rst".toList (text overwriting lines) (process Flatten.handbook overwriting).tree ∧
      summary.linesWritten = (entries overwriting lines).length - 1 := by
  have succeeds : (process Flatten.handbook overwriting).result.toOption.isSome = true := by
    decide +kernel
  obtain ⟨summary, found⟩ := Option.isSome_iff_exists.mp succeeds
  have ok := Flatten.toOption_eq_some_iff.mp found
  have whole := process_all_or_nothing Flatten.handbook overwriting
  dsimp only at whole
  rw [ok] at whole
  obtain ⟨lines, -, writes, -, -, -, -, -, count⟩ := whole
  exact ⟨summary, lines, ok, writes, count (by decide +kernel)⟩

end DocPress.Run
