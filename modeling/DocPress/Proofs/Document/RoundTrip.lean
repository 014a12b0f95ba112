import DocPress.Proofs.Document.ReadBack

namespace DocPress.Document
open Text Markup

theorem trim_caption {caption : Text} (trimmed : IsTrimmed caption) : trim ("   ".toList ++ caption) = caption := by
  rw [trim_append_of_blank rfl, trimmed.trim]

theorem IsFigure.parse {path caption : Option Text} (sound : IsFigure path caption) (anchor : Option Text) :
    Figure.parse ((Body.figure path caption).lines ++ [[]]) anchor = ⟨path, caption.getD [], anchor⟩ := by
  have argument : ((((Body.figure path caption).lines ++ [[]]).head?).bind
      (directiveArgument? "figure".toList)).map trim = path := directiveArgument?_directiveLine sound.isPath
  have body : (((Body.figure path caption).lines ++ [[]]).drop 1).map trim = [] :: caption.toList ++ [[]] := by
    cases caption with
    | none => rfl
    | some caption => exact congrArg (fun line => [[], line, []]) (trim_caption (sound.isCaption caption rfl))
  rw [Figure.parse, argument, body]
  cases caption with
  | none => rfl
  | some caption =>
    have filled := (sound.isCaption caption rfl).filled
    have stays : Figure.precedesCaption caption = false := by
      simp [Figure.precedesCaption, sound.plain caption rfl, filled]
    simp [Figure.precedesCaption.eq_1 [], stays, filled, joinWith]

theorem Entry.map_blocks {entry : Entry} (sound : entry.IsSound) :
    entry.blocks.map Element.ofBlock = entry.elements := by
  have sound := sound.body
  rw [Entry.blocks, Entry.elements]
  cases body : entry.body with
  | header overlined title underline | paragraph lines => cases entry.anchor <;> rfl
  | table source =>
    rw [body] at sound
    exact congrArg (fun table => [Element.table table]) (TableSource.parse_block sound entry.anchor)
  | figure path caption =>
    rw [body] at sound
    exact congrArg (fun figure => [Element.figure figure]) (IsFigure.parse sound entry.anchor)

/-- Written entries are read back, whatever stands next to each other. -/
theorem parse_written {entries : List Entry} (sound : IsSound entries) :
    parse (written entries) = entries.flatMap Entry.elements := by
  rw [parse, blocks_written sound, List.map_flatMap]
  exact List.flatMap_congr fun entry member => Entry.map_blocks (sound.entry entry member)

example :
    let table : TableSource := { rows := [["a".toList, []]], footnotes := [⟨"#b".toList, "c".toList⟩] }
    let lines := [".. _t:", "", ".. csv-table::", "", "   \"a\",\"\"", "", ".. [#b] c", "", "===", "A", "===", ""]
    written [⟨some "t".toList, .table table⟩, ⟨none, .header true "A".toList "===".toList⟩] = lines.map String.toList ∧
      parse (lines.map String.toList) =
        [.table (table.table (some "t".toList)), .header (some "===".toList) "A".toList "===".toList] := by
  decide +kernel

def manual : List Entry :=
  [{ anchor := some "top".toList, body := .header true "Manual".toList "======".toList },
    { body := .paragraph ["Values are given".toList, "- below [#a]_.".toList] },
    { anchor := some "values".toList
      body := .table {
        title := some "All values".toList
        options := [⟨.widths, "20,100".toList⟩, ⟨.header, "Name, Value".toList⟩]
        rows := [["a".toList, "1, 2".toList], [[], " b ".toList]]
        footnotes := [⟨"#a".toList, "Not in use.".toList⟩, ⟨"#b".toList, []⟩] } },
    { body := .table { rows := [["c".toList]] } },
    { anchor := some "plan".toList, body := .figure (some "plan.png".toList) (some "The plan".toList) },
    { body := .figure none none },
    { anchor := some "last".toList, body := .paragraph [".. [#c] is no footnote here".toList] },
    { body := .header false "Index".toList "-----".toList }]

theorem parse_written_manual : IsSound manual ∧ parse (written manual) = manual.flatMap Entry.elements := by
  have sound : IsSound manual := by decide +kernel
  exact ⟨sound, parse_written sound⟩

end DocPress.Document
