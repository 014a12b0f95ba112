import DocPress.Document.Element
import DocPress.Proofs.Document.Sources

namespace DocPress.Document
open Text Markup Heading

def Block.anchor? : Block → Option Text
  | .label anchor => some anchor
  | .table _ anchor | .figure _ anchor => anchor
  | .header .. | .paragraph _ => none

theorem anchor?_ofBlock (block : Block) : (Element.ofBlock block).anchor? = block.anchor? := by
  cases block <;> rfl

def labels (sources : List Source) : List Text :=
  sources.filterMap fun source => source.block.anchor?

@[simp]
theorem labels_append (first second : List Source) : labels (first ++ second) = labels first ++ labels second :=
  List.filterMap_append

namespace Reader
variable (reader : Reader)

@[simp]
theorem labels_flushed : labels reader.flushed = [] := by
  rw [flushed]
  split <;> rfl

@[simp]
theorem labels_placed : labels reader.placed = reader.anchor?.toList := by
  rw [placed, anchor?]
  cases reader.waiting <;> rfl

theorem labels_move (move : Move) : labels (reader.emitted move) ++ (reader.next move).anchor?.toList =
    reader.anchor?.toList ++ move.anchor?.toList := by
  cases move with
  | label line anchor =>
    rw [emitted, labels_placed]
    rfl
  | heading title underline =>
    have header : labels (if reader.Overlined underline then
        [⟨.header (some underline) title underline, reader.opened, none⟩]
        else reader.flushed ++ [⟨.header none title underline, reader.line, none⟩]) = [] := by
      split
      · rfl
      · rw [labels_append, labels_flushed]
        rfl
    rw [emitted, labels_append, header, labels_placed]
    rfl
  | table block | figure lines =>
    rw [emitted, labels_append, labels_flushed]
    cases waiting : reader.anchor? <;> simp [labels, Block.anchor?, next, anchor?, Move.anchor?]
  | captured lines =>
    rw [emitted, labels_append, labels_flushed, List.nil_append, ← List.singleton_append, labels_append, labels_placed]
    rfl
  | blank line =>
    rw [emitted, next]
    split
    · exact (List.append_nil _).symm
    · rw [labels_append, labels_flushed, labels_placed]
      rfl
  | text line => exact (List.append_nil _).symm

theorem labels_sources (lines : List Text) :
    labels (reader.sources lines) = reader.anchor?.toList ++ lines.filterMap Markup.anchor? := by
  induction reader, lines using sources.induct with
  | case1 reader => simp [sources]
  | case2 reader line rest move ih =>
    have read := lines_nextMove reader.waiting.isSome line rest
    rw [sources, labels_append, ih, ← List.append_assoc, labels_move, ← read, List.filterMap_append,
      anchors_nextMove, List.append_assoc]

end Reader

theorem labels_count (stats : Stats) (element : Element) :
    (stats.count element).labels = stats.labels + element.anchor?.toList.length := by
  cases element with
  | header | label | paragraph => rfl
  | table t =>
    rw [Stats.count, Element.anchor?]
    cases t.anchor <;> rfl
  | figure f =>
    rw [Stats.count, Element.anchor?]
    cases f.anchor <;> rfl

theorem labels_of (elements : List Element) :
    (Stats.of elements).labels = (elements.filterMap Element.anchor?).length := by
  induction elements using List.reverseRecOn with
  | nil => rfl
  | append_singleton elements element ih =>
    rw [Stats.of, List.foldl_concat, labels_count, ← Stats.of, ih, List.filterMap_append, List.length_append]
    cases found : element.anchor? <;> simp [found]

theorem anchors_parse (lines : List Text) :
    (parse lines).filterMap Element.anchor? = (lines.map trimEnd).filterMap Markup.anchor? := by
  have kept := Reader.labels_sources {} (lines.map trimEnd)
  rw [parse, List.filterMap_map, blocks_eq_map_sources, List.filterMap_map]
  simp only [Function.comp_def, anchor?_ofBlock]
  exact kept

/-- The labels of a document are its label lines, in order, whatever stands between them, and are counted so. -/
theorem labels_kept (lines : List Text) :
    (parse lines).filterMap Element.anchor? = (lines.map trimEnd).filterMap Markup.anchor? ∧
      (Stats.of (parse lines)).labels = ((lines.map trimEnd).filterMap Markup.anchor?).length := by
  have kept := anchors_parse lines
  exact ⟨kept, by rw [labels_of, kept]⟩

end DocPress.Document
