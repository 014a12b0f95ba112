import DocPress.Proofs.Latex.FixedPoint

/-!
# LaTeX's count of the footnotes

The lines of a table number its footnotes only relative to a counter of LaTeX, while the numbers of a document are
counted along as its tables are written. The two counts agree in every table and at the end (`footnotes_counted`): the
commands that are read from the lines of a table save the counter, set one text for each footnote and move the counter
past them (`countingCommands_table`), and no other element has such commands.
-/

namespace DocPress.Latex
open Text Document

/-! ## The commands that count, as they are read from lines -/

def decimal? (t : Text) : Option Nat :=
  if t.isEmpty then none else digitsFrom? 0 t

def offset? (t : Text) : Option Nat :=
  (afterLead? "\\numexpr\\value\x7boriginalfootnotevalue\x7d+".toList t).bind decimal?

def footnoteText? (t : Text) : Option Command := do
  let (mark, body) ← cut? [']'] t
  let offset ← offset? mark
  let text ← (afterLead? ['\x7b'] body).bind (beforeTail? ['\x7d'])
  some (.footnoteText offset text)

def setCounter? (t : Text) : Option Command :=
  if t = "originalfootnotevalue\x7d\x7b\\value\x7bfootnote\x7d\x7d".toList then some .saveFootnoteCounter
  else (((afterLead? "footnote\x7d\x7b".toList t).bind (beforeTail? ['\x7d'])).bind offset?).map .restoreFootnoteCounter

/-- The command of a line that does nothing but set a footnote counter or the text of a footnote. -/
def counting? (line : Text) : Option Command :=
  ((afterLead? "\\setcounter\x7b".toList (trim line)).bind setCounter?).or
    ((afterLead? "\\footnotetext[".toList (trim line)).bind footnoteText?)

def countingCommands (lines : List Text) : List Command :=
  lines.filterMap counting?

def Command.isCounting : Command → Bool
  | saveFootnoteCounter | restoreFootnoteCounter _ | footnoteText _ _ => true
  | _ => false

theorem offset?_counterPlus (offset : Nat) : offset? (counterPlus offset) = some offset := by
  have filled : (ofNat offset).isEmpty = false := List.isEmpty_eq_false_iff.mpr Nat.toDigits_ne_nil
  unfold offset? counterPlus
  rw [afterLead?_append, Option.bind_some, decimal?, filled, if_neg Bool.false_ne_true, digitsFrom?_ofNat]

theorem footnoteText?_written (offset : Nat) (text : Text) :
    footnoteText? (counterPlus offset ++ ']' :: braced text) = some (.footnoteText offset text) := by
  have plain : ']' ∉ counterPlus offset := by
    unfold counterPlus
    rw [List.mem_append, not_or]
    refine ⟨by decide, fun member => ?_⟩
    exact absurd (isDigit_of_mem_ofNat member) (by decide)
  have body : (afterLead? ['\x7b'] (braced text)).bind (beforeTail? ['\x7d']) = some text :=
    beforeTail?_append text ['\x7d']
  rw [footnoteText?, cut?_of_not_mem plain]
  simp only [Option.bind_eq_bind, Option.bind_some, offset?_counterPlus, body]

theorem setCounter?_restore (offset : Nat) :
    setCounter? ("footnote\x7d".toList ++ braced (counterPlus offset)) = some (.restoreFootnoteCounter offset) := by
  have body : (afterLead? "footnote\x7d\x7b".toList ("footnote\x7d".toList ++ braced (counterPlus offset))).bind
      (beforeTail? ['\x7d']) = some (counterPlus offset) :=
    beforeTail?_append (counterPlus offset) ['\x7d']
  unfold setCounter?
  rw [if_neg, body, Option.bind_some, offset?_counterPlus, Option.map_some]
  intro same
  cases same

theorem getLast?_of_counting? {line : Text} {command : Command} (found : counting? line = some command) :
    (trim line).getLast? = some '\x7d' := by
  unfold counting? at found
  rcases Option.or_eq_some_iff.mp found with found | ⟨-, found⟩
  · obtain ⟨rest, lead, found⟩ := Option.bind_eq_some_iff.mp found
    unfold setCounter? at found
    split at found
    · next save => rw [afterLead?_eq_some_iff.mp lead, save]; decide
    · obtain ⟨offset, read, _⟩ := Option.map_eq_some_iff.mp found
      obtain ⟨inner, read, _⟩ := Option.bind_eq_some_iff.mp read
      obtain ⟨body, opened, closed⟩ := Option.bind_eq_some_iff.mp read
      rw [afterLead?_eq_some_iff.mp lead, afterLead?_eq_some_iff.mp opened, beforeTail?_eq_some_iff.mp closed,
        ← List.append_assoc, ← List.append_assoc, List.getLast?_concat]
  · obtain ⟨rest, lead, found⟩ := Option.bind_eq_some_iff.mp found
    simp only [footnoteText?, Option.bind_eq_bind, Option.bind_eq_some_iff] at found
    obtain ⟨⟨mark, body⟩, parted, _, _, _, ⟨inner, opened, closed⟩, _⟩ := found
    have ended : body = ['\x7b'] ++ inner := afterLead?_eq_some_iff.mp opened
    rw [afterLead?_eq_some_iff.mp lead, cut?_eq_some parted, ended, beforeTail?_eq_some_iff.mp closed,
      ← List.append_assoc, ← List.append_assoc, ← List.append_assoc, List.getLast?_concat]

theorem trim_indented {t : Text} (visible : t.head?.any isSpace = false) (ended : IsEnded t) :
    trim ("    ".toList ++ t) = t := by
  rw [trim_append_of_blank rfl]
  cases t with
  | nil => rfl
  | cons c t => rw [trim_eq_trimEnd (by simpa using visible), ended.trimmed]

theorem counting?_eq_none {line rest : Text} (start : Text) (kept : trim line = start ++ rest)
    (apart : ∀ lead ∈ ["\\setcounter\x7b".toList, "\\footnotetext[".toList],
      (lead.zip start).any (fun pair => pair.1 != pair.2) = true) :
    counting? line = none := by
  have counter := apart _ List.mem_cons_self
  have text := apart _ (List.mem_cons_of_mem _ List.mem_cons_self)
  unfold counting?
  rw [kept, afterLead?_eq_none counter, afterLead?_eq_none text]
  rfl

theorem counting?_source (command : Command) :
    counting? ("    ".toList ++ command.source) = if command.isCounting then some command else none := by
  have ended := isEnded_source command
  cases command with
  | row cells =>
    -- A row may start with anything, so its end tells it apart: all commands that count end in a brace.
    rw [if_neg (by simp [Command.isCounting]), Option.eq_none_iff_forall_ne_some]
    intro command found
    have brace := getLast?_of_counting? found
    have source : (Command.row cells).source = joinWith " & ".toList cells ++ " \\\\".toList := rfl
    have tail : " \\\\".toList = " \\".toList ++ ['\\'] := by decide
    rw [source, tail, ← List.append_assoc, ← List.append_assoc, getLast?_trim_concat (by decide)] at brace
    cases brace
  | restoreFootnoteCounter offset =>
    have kept : trim ("    ".toList ++ (Command.restoreFootnoteCounter offset).source) =
      "\\setcounter\x7b".toList ++ ("footnote\x7d".toList ++ braced (counterPlus offset)) := trim_indented rfl ended
    unfold counting?
    rw [kept, afterLead?_append, Option.bind_some, setCounter?_restore]
    rfl
  | footnoteText offset text =>
    have kept : trim ("    ".toList ++ (Command.footnoteText offset text).source) =
        "\\footnotetext[".toList ++ (counterPlus offset ++ ']' :: braced text) :=
      (trim_indented rfl ended).trans (List.append_assoc _ _ _)
    have other : afterLead? "\\setcounter\x7b".toList
        ("\\footnotetext[".toList ++ (counterPlus offset ++ ']' :: braced text)) = none :=
      afterLead?_eq_none (by decide +kernel) _
    unfold counting?
    rw [kept, other, afterLead?_append, Option.bind_some, footnoteText?_written]
    rfl
  | saveFootnoteCounter | beginTable | endTable | centering | endTabular | topRule | midRule | bottomRule | beginFigure
  | endFigure => decide +kernel
  | rowColors even odd =>
    exact counting?_eq_none "\\rowcolors\x7b1\x7d".toList
      ((trim_indented rfl ended).trans (List.append_assoc _ _ _)) (by decide +kernel)
  | caption text => exact counting?_eq_none "\\caption".toList (trim_indented rfl ended) (by decide +kernel)
  | label anchor => exact counting?_eq_none "\\label".toList (trim_indented rfl ended) (by decide +kernel)
  | beginTabular columns =>
    exact counting?_eq_none "\\begin\x7btabular\x7d".toList (trim_indented rfl ended) (by decide +kernel)
  | rowColor color => exact counting?_eq_none "\\rowcolor".toList (trim_indented rfl ended) (by decide +kernel)
  | graphics width path =>
    exact counting?_eq_none "\\includegraphics[width=".toList
      ((trim_indented rfl ended).trans ((List.append_assoc _ _ _).trans (List.append_assoc _ _ _))) (by decide +kernel)

theorem countingCommands_island (commands : List Command) :
    countingCommands (commandIsland commands) = commands.filter Command.isCounting := by
  have lead : countingCommands [[], ".. raw:: latex".toList, []] = [] := by decide +kernel
  have last : countingCommands [[]] = [] := by decide +kernel
  have body : countingCommands ((commands.map Command.source).map ("    ".toList ++ ·)) =
      commands.filter Command.isCounting := by
    rw [countingCommands, List.filterMap_map, List.filterMap_map, ← List.filterMap_eq_filter]
    refine List.filterMap_congr fun command _ => ?_
    rw [Function.comp_apply, Function.comp_apply, counting?_source]
    rfl
  rw [countingCommands] at lead last body ⊢
  rw [commandIsland, island, List.filterMap_append, List.filterMap_append, lead, body, last, List.nil_append,
    List.append_nil]

/-! ## What the commands of a table are -/

section
variable (table : Table) (style : TableStyle) (counter : FootnoteCounter)

theorem filter_isCounting_tabularCommands : (tabularCommands table style).filter Command.isCounting = [] := by
  unfold tabularCommands headerCommands rowCommands
  split
  · rfl
  · split <;> simp [Command.isCounting, List.filter_map, Function.comp_def]

theorem footnoteCommands_eq : footnoteCommands table counter =
    table.footnotes.zipIdx.map (fun (footnote, position) => Command.footnoteText (position + 1) footnote.text) ++
      if table.footnotes = [] then [] else [.restoreFootnoteCounter table.footnotes.length] := by
  unfold footnoteCommands numberFootnotes
  cases footnotes : table.footnotes using List.reverseRecOn with
  | nil => rfl
  | append_singleton init last => simp [List.zipIdx_append, Function.comp_def]

theorem filter_isCounting_footnoteCommands :
    (footnoteCommands table counter).filter Command.isCounting = footnoteCommands table counter := by
  rw [footnoteCommands_eq, List.filter_eq_self]
  intro command member
  rcases List.mem_append.mp member with text | last
  · obtain ⟨_, _, rfl⟩ := List.mem_map.mp text
    rfl
  · split at last
    · cases last
    · rw [List.mem_singleton.mp last]
      rfl

theorem countingCommands_table :
    countingCommands (commandIsland (tableCommands table style counter)) =
      .saveFootnoteCounter :: footnoteCommands table counter := by
  have top : [Command.saveFootnoteCounter, .beginTable, .centering,
      .rowColors style.evenRowColor style.oddRowColor].filter Command.isCounting = [.saveFootnoteCounter] := rfl
  have title : (table.title.toList.map Command.caption).filter Command.isCounting = [] := by
    cases table.title <;> rfl
  have anchor : (table.anchor.toList.map Command.label).filter Command.isCounting = [] := by
    cases table.anchor <;> rfl
  have bottom : [Command.endTable].filter Command.isCounting = [] := rfl
  rw [countingCommands_island, tableCommands]
  simp only [List.filter_append, top, title, anchor, bottom, filter_isCounting_tabularCommands,
    filter_isCounting_footnoteCommands, List.append_nil, List.singleton_append]

end

/-! ## The counters of LaTeX -/

/-- The counter that numbers footnotes, and the value it had before the last table. -/
structure Counters where
  footnote : Nat
  original : Nat
deriving DecidableEq, Repr

namespace Counters
variable (counters : Counters)

def execute : Command → Counters
  | .saveFootnoteCounter => { counters with original := counters.footnote }
  | .restoreFootnoteCounter offset => { counters with footnote := counters.original + offset }
  | _ => counters

def run (commands : List Command) : Counters :=
  commands.foldl execute counters

def footnote? : Command → Option (Nat × Text)
  | .footnoteText offset text => some (counters.original + offset, text)
  | _ => none

def footnotes : Counters → List Command → List (Nat × Text)
  | _, [] => []
  | counters, command :: rest => (counters.footnote? command).toList ++ footnotes (counters.execute command) rest

theorem run_append (first second : List Command) : counters.run (first ++ second) = (counters.run first).run second :=
  List.foldl_append

theorem footnotes_append (first second : List Command) :
    counters.footnotes (first ++ second) = counters.footnotes first ++ (counters.run first).footnotes second := by
  induction first generalizing counters with
  | nil => rfl
  | cons command first ih => simp [footnotes, run, ih]

/-! ## One table -/

section
variable (notes : List (Footnote × Nat))

theorem run_texts : counters.run (notes.map fun note => .footnoteText (note.2 + 1) note.1.text) = counters := by
  induction notes with
  | nil => rfl
  | cons note notes ih => exact ih

theorem footnotes_texts : counters.footnotes (notes.map fun note => .footnoteText (note.2 + 1) note.1.text) =
    notes.map fun note => (counters.original + (note.2 + 1), note.1.text) := by
  induction notes with
  | nil => rfl
  | cons note notes ih => exact congrArg (_ :: ·) ih

end

variable (table : Table) (counter : FootnoteCounter)

theorem run_table : counters.run (.saveFootnoteCounter :: footnoteCommands table counter) =
    ⟨counters.footnote + table.footnotes.length, counters.footnote⟩ := by
  rw [footnoteCommands_eq, ← List.singleton_append, ← List.append_assoc, run_append, run_append, run_texts]
  split
  · next none => simp [none, run, execute]
  · rfl

theorem footnotes_table : counters.footnotes (.saveFootnoteCounter :: footnoteCommands table counter) =
    (numberFootnotes table ⟨counters.footnote⟩).map fun numbered => (numbered.number, numbered.footnote.text) := by
  rw [footnoteCommands_eq, ← List.singleton_append, ← List.append_assoc, footnotes_append, footnotes_append,
    footnotes_texts]
  split <;> simp [footnotes, footnote?, run, execute, numberFootnotes, Function.comp_def, Nat.add_assoc]

end Counters

/-! ## A document -/

def footnotesOf : Element → List Footnote
  | .table table => table.footnotes
  | _ => []

def markupLines : Element → List Text
  | .header overline title underline => overline.toList ++ [title, underline]
  | .paragraph lines => lines
  | _ => []

section
variable (style : Style) (counter : FootnoteCounter)

theorem countingCommands_element {element : Element} (silent : ∀ line ∈ markupLines element, counting? line = none)
    (counter : FootnoteCounter) : countingCommands (renderElement style counter element) =
      match element with
      | .table table => .saveFootnoteCounter :: footnoteCommands table counter
      | _ => [] := by
  cases element with
  | header overline title underline => exact List.filterMap_eq_nil_iff.mpr silent
  | paragraph lines => exact List.filterMap_eq_nil_iff.mpr silent
  | label anchor => exact countingCommands_island [.label anchor]
  | table table => exact countingCommands_table table style.table counter
  | figure figure =>
    refine (countingCommands_island (figureCommands figure style.figure)).trans ?_
    cases figure with
    | mk path caption anchor => cases path <;> cases anchor <;> rfl

theorem renderLines_append (first second : List Element) :
    renderLines style counter (first ++ second) =
      renderLines style counter first ++ renderLines style (finalCounter counter first) second := by
  induction first generalizing counter with
  | nil => rfl
  | cons element first ih => simp [renderLines, finalCounter, ih]

theorem renderElement_counter (element : Element) (other : FootnoteCounter) :
    renderElement style other element = renderElement style counter element := by
  cases element with
  | table table => simp [renderElement, tableCommands, footnoteCommands_eq]
  | header | label | paragraph | figure => rfl

theorem renderLines_counter (elements : List Element) (other : FootnoteCounter) :
    renderLines style other elements = renderLines style counter elements := by
  induction elements generalizing counter other with
  | nil => rfl
  | cons element elements ih =>
    rw [renderLines, renderLines, renderElement_counter, ih]

theorem value_finalCounter (elements : List Element) :
    (finalCounter counter elements).value = counter.value + (elements.flatMap footnotesOf).length := by
  induction elements generalizing counter with
  | nil => rfl
  | cons element elements ih =>
    rw [finalCounter, List.foldl_cons]
    refine (ih (counterAfterElement counter element)).trans ?_
    rw [List.flatMap_cons, List.length_append, ← Nat.add_assoc]
    cases element <;> rfl

theorem countingCommands_append (first second : List Text) :
    countingCommands (first ++ second) = countingCommands first ++ countingCommands second :=
  List.filterMap_append

theorem countingCommands_cons (element : Element) (elements : List Element) :
    countingCommands (renderLines style counter (element :: elements)) =
      countingCommands (renderElement style counter element) ++
        countingCommands (renderLines style (counterAfterElement counter element) elements) := by
  have empty : countingCommands [[]] = [] := by decide +kernel
  rw [renderLines, List.append_cons, countingCommands_append, countingCommands_append, empty, List.append_nil]

variable (counters : Counters)

theorem run_element {element : Element} (silent : ∀ line ∈ markupLines element, counting? line = none) :
    (counters.run (countingCommands (renderElement style counter element))).footnote =
      counters.footnote + (footnotesOf element).length := by
  rw [countingCommands_element style silent]
  cases element with
  | table table => rw [counters.run_table, footnotesOf]
  | header | label | paragraph | figure => rfl

theorem numbers_element {element : Element} (silent : ∀ line ∈ markupLines element, counting? line = none) :
    (counters.footnotes (countingCommands (renderElement style counter element))).map Prod.fst =
      List.range' (counters.footnote + 1) (footnotesOf element).length := by
  rw [countingCommands_element style silent]
  cases element with
  | table table =>
    rw [counters.footnotes_table, footnotesOf, numberFootnotes, List.map_map, List.map_map]
    apply List.ext_getElem
    · simp
    · intro position _ _
      simp
      omega
  | header | label | paragraph | figure => rfl

theorem run_document {elements : List Element}
    (silent : ∀ element ∈ elements, ∀ line ∈ markupLines element, counting? line = none) :
    (counters.run (countingCommands (renderLines style counter elements))).footnote =
      counters.footnote + (elements.flatMap footnotesOf).length := by
  induction elements generalizing counter counters with
  | nil => rfl
  | cons element elements ih =>
    obtain ⟨first, rest⟩ := List.forall_mem_cons.mp silent
    rw [countingCommands_cons, counters.run_append, ih _ _ rest, run_element style counter counters first,
      List.flatMap_cons, List.length_append, Nat.add_assoc]

theorem numbers_document {elements : List Element}
    (silent : ∀ element ∈ elements, ∀ line ∈ markupLines element, counting? line = none) :
    (counters.footnotes (countingCommands (renderLines style counter elements))).map Prod.fst =
      List.range' (counters.footnote + 1) (elements.flatMap footnotesOf).length := by
  induction elements generalizing counter counters with
  | nil => rfl
  | cons element elements ih =>
    obtain ⟨first, rest⟩ := List.forall_mem_cons.mp silent
    rw [countingCommands_cons, counters.footnotes_append, List.map_append, ih _ _ rest,
      numbers_element style counter counters first, run_element style counter counters first, List.flatMap_cons,
      List.length_append, Nat.add_right_comm, List.range'_append_1]

end

/-- LaTeX numbers the footnotes of each table as they are numbered while the document is written: over a document from
one more than the value it starts from on, without a gap. What is written does not depend on that value. -/
theorem footnotes_counted {elements : List Element} (style : Style) (start original : Nat)
    (silent : ∀ element ∈ elements, ∀ line ∈ markupLines element, counting? line = none) :
    let latex : Counters := ⟨start, original⟩
    let written := renderLines style ⟨start⟩ elements
    let total := (elements.flatMap footnotesOf).length
    (∀ before table after, elements = before ++ .table table :: after →
        let above := renderLines style ⟨start⟩ before
        let counter := finalCounter ⟨start⟩ before
        let own := renderElement style counter (.table table)
        above ++ own <+: written ∧
          (latex.run (countingCommands above)).footnotes (countingCommands own) =
            (numberFootnotes table counter).map fun numbered => (numbered.number, numbered.footnote.text)) ∧
      (latex.footnotes (countingCommands written)).map Prod.fst = List.range' (start + 1) total ∧
      (latex.run (countingCommands written)).footnote = start + total ∧
      (finalCounter ⟨start⟩ elements).value = start + total ∧
      ∀ other, renderLines style other elements = written := by
  intro latex written total
  refine ⟨?_, numbers_document style _ latex silent, run_document style _ latex silent, value_finalCounter _ _,
    renderLines_counter style _ elements⟩
  rintro before table after rfl above counter own
  have counted : (latex.run (countingCommands above)).footnote = counter.value := by
    rw [value_finalCounter]
    exact run_document style _ latex fun element member => silent element (List.mem_append_left _ member)
  constructor
  · rw [show written = _ from renderLines_append style _ before _, renderLines, ← List.append_assoc]
    exact List.prefix_append _ _
  · rw [show countingCommands own = _ from countingCommands_table table style.table counter, Counters.footnotes_table,
      counted]

def survey : List Element :=
  [.paragraph ["Results".toList],
    .table { rows := [["4 [#a]_".toList]], footnotes := [⟨"#a".toList, "estimated".toList⟩, ⟨"#b".toList, []⟩] },
    .table { rows := [["5".toList]] },
    .table { footnotes := [⟨"#a".toList, "revised".toList⟩] }]

theorem footnotes_counted_survey :
    (∀ element ∈ survey, ∀ line ∈ markupLines element, counting? line = none) ∧
      ((⟨3, 0⟩ : Counters).footnotes (countingCommands (renderLines {} ⟨3⟩ survey))).map Prod.fst = [4, 5, 6] ∧
      ((⟨3, 0⟩ : Counters).run (countingCommands (renderLines {} ⟨3⟩ survey))).footnote = 6 := by
  have silent : ∀ element ∈ survey, ∀ line ∈ markupLines element, counting? line = none := by decide +kernel
  obtain ⟨_, numbers, final, _⟩ := footnotes_counted {} 3 0 silent
  exact ⟨silent, numbers, final⟩

end DocPress.Latex
