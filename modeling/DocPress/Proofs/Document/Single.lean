import DocPress.Proofs.Catalog.Localize
import DocPress.Proofs.Document.Content
import DocPress.Proofs.Document.Footnotes
import DocPress.Proofs.Document.Labels
import DocPress.Proofs.Flatten.Piece

namespace DocPress.Text

theorem stripWhile_subset (p : Char → Bool) (t : Text) : stripWhile p t ⊆ t := by
  rw [stripWhile, dropEndWhile_eq_rdropWhile]
  exact List.Subset.trans (List.rdropWhile_prefix p _).subset (List.dropWhile_suffix p).subset

theorem mem_joinWith {c : Char} {separator : Text} {ts : List Text} (member : c ∈ joinWith separator ts) :
    c ∈ separator ∨ ∃ t ∈ ts, c ∈ t := by
  fun_induction joinWith separator ts with
  | case1 => cases member
  | case2 t => exact .inr ⟨t, List.mem_singleton_self t, member⟩
  | case3 t u rest ih =>
    rw [List.mem_append, List.mem_append] at member
    rcases member with (member | member) | member
    · exact .inr ⟨t, List.mem_cons_self, member⟩
    · exact .inl member
    · obtain below | ⟨v, among, inside⟩ := ih member
      · exact .inl below
      · exact .inr ⟨v, List.mem_cons_of_mem t among, inside⟩

theorem not_mem_joinWith {c : Char} {separator : Text} {ts : List Text} (apart : c ∉ separator)
    (outside : ∀ t ∈ ts, c ∉ t) : c ∉ joinWith separator ts := by
  intro member
  obtain inside | ⟨t, among, inside⟩ := mem_joinWith member
  · exact apart inside
  · exact outside t among inside

end DocPress.Text

namespace DocPress.Document
open Text Markup Heading Flatten

/-! ## Blocks are made of lines -/

def linesOf (sources : List Source) : List Text :=
  sources.flatMap fun source => source.block.lines

@[simp]
theorem linesOf_nil : linesOf [] = [] :=
  rfl

@[simp]
theorem linesOf_cons (source : Source) (sources : List Source) :
    linesOf (source :: sources) = source.block.lines ++ linesOf sources :=
  List.flatMap_cons

@[simp]
theorem linesOf_append (first second : List Source) : linesOf (first ++ second) = linesOf first ++ linesOf second :=
  List.flatMap_append

namespace Reader
variable (reader : Reader)

@[simp]
theorem linesOf_flushed : linesOf reader.flushed = reader.paragraph := by
  rw [flushed]
  split
  · next empty => rw [List.isEmpty_iff.mp empty]; rfl
  · simp [linesOf, Block.lines]

@[simp]
theorem linesOf_placed : linesOf reader.placed = [] := by
  rw [placed]
  cases reader.waiting <;> rfl

theorem lines_move (move : Move) :
    linesOf (reader.emitted move) ++ (reader.next move).paragraph ⊆ reader.paragraph ++ move.lines := by
  cases move with
  | label | text => simp [emitted, next, Move.lines]
  | heading title underline =>
    rw [emitted]
    split <;> simp [Block.lines, next, Move.lines]
  | table | figure => simp [emitted, next, Block.lines, Move.lines]
  | captured lines =>
    have kept : dropEndWhile isBlank lines ⊆ lines := by
      rw [dropEndWhile_eq_rdropWhile]
      exact (List.rdropWhile_prefix isBlank lines).subset
    simpa [emitted, next, Block.lines, Move.lines] using List.subset_append_of_subset_right _ kept
  | blank line =>
    rw [emitted, next]
    split <;> simp [Move.lines]

theorem lines_sources (lines : List Text) : linesOf (reader.sources lines) ⊆ reader.paragraph ++ lines := by
  induction reader, lines using sources.induct with
  | case1 reader => simp [sources]
  | case2 reader line rest move =>
    rename_i ih
    obtain ⟨made, kept⟩ := List.append_subset.mp (reader.lines_move move)
    have whole : (reader.paragraph ++ move.lines) ++ belowMove reader.waiting.isSome line rest =
        reader.paragraph ++ line :: rest := by
      rw [List.append_assoc, lines_nextMove]
    rw [sources, linesOf_append, ← whole]
    refine List.append_subset.mpr ⟨List.subset_append_of_subset_left _ made, List.Subset.trans ih ?_⟩
    exact List.append_subset.mpr ⟨List.subset_append_of_subset_left _ kept, List.subset_append_right _ _⟩

end Reader

theorem lines_blocks_subset (lines : List Text) : (blocks lines).flatMap Block.lines ⊆ lines.map trimEnd := by
  rw [blocks_eq_map_sources, List.flatMap_map]
  exact Reader.lines_sources {} (lines.map trimEnd)

/-! ## Tables and figures -/

theorem fieldsFrom_subset {current row field : Text} {inside : Bool} (member : field ∈ fieldsFrom current inside row) :
    field ⊆ current ++ row := by
  have own : ∀ raw, fieldOf raw ⊆ raw := fun raw =>
    List.Subset.trans (stripWhile_subset _ _) (trim_sublist raw).subset
  fun_induction fieldsFrom current inside row with
  | case1 => cases member
  | case2 current => simpa [List.mem_singleton.mp member] using own current
  | case3 current inside rest ih => simpa using ih member
  | case4 current inside c rest _ _ ih =>
    rcases List.mem_cons.mp member with rfl | member
    · exact List.subset_append_of_subset_left _ (own current)
    · exact List.subset_append_of_subset_right _ (List.subset_cons_of_subset c (ih member))
  | case5 current inside c rest _ _ ih => simpa using ih member

theorem fields_subset {row field : Text} (member : field ∈ fields row) : field ⊆ row :=
  fieldsFrom_subset member

theorem footnote?_subset {line tag text : Text} (found : footnote? line = some (tag, text)) : text ⊆ line := by
  unfold footnote? at found
  split at found
  · cases found
  · next name after parted =>
    obtain ⟨rest, lead, cut⟩ := Option.bind_eq_some_iff.mp parted
    have whole : after ⊆ line := by
      refine fun c among => (trim_sublist line).subset ?_
      rw [afterLead?_eq_some_iff.mp lead, cut?_eq_some cut]
      exact List.mem_append_right _ (List.mem_append_right _ among)
    split at found
    · split at found
      · cases found
        exact List.nil_subset line
      · obtain ⟨body, below, same⟩ := Option.map_eq_some_iff.mp found
        obtain ⟨rfl, rfl⟩ := Prod.mk.inj same
        exact fun c among => whole (afterLead?_subset below ((trim_sublist body).subset among))
    · cases found

theorem sections_subset (lines : List Text) : (Table.sections lines).options ⊆ lines ∧
    (Table.sections lines).rows ⊆ lines ∧ (Table.sections lines).notes ⊆ lines := by
  have body : lines.drop 1 ⊆ lines := (List.drop_sublist 1 lines).subset
  have below : ((lines.drop 1).dropWhile isFilled).drop 1 ⊆ lines :=
    List.Subset.trans (List.drop_sublist 1 _).subset (List.Subset.trans (List.dropWhile_sublist _).subset body)
  exact ⟨List.Subset.trans (List.takeWhile_sublist _).subset body,
    List.Subset.trans (List.takeWhile_sublist _).subset below,
    List.Subset.trans (List.dropWhile_sublist _).subset below⟩

def Element.texts : Element → List Text
  | .header overline title underline => overline.toList ++ [title, underline]
  | .label anchor => [anchor]
  | .paragraph lines => lines
  | .table t =>
    t.title.toList ++ t.headerTitles.getD [] ++ t.rows.flatten ++ t.footnotes.map Footnote.text ++ t.anchor.toList
  | .figure f => f.path.toList ++ f.caption :: f.anchor.toList

section
variable {lines : List Text} (single : ∀ line ∈ lines, '\n' ∉ line)
include single

theorem single_definedFootnotes : ∀ footnote ∈ definedFootnotes lines, '\n' ∉ footnote.text := by
  intro footnote member
  obtain ⟨tail, among, defined⟩ := List.mem_filterMap.mp member
  have inside : tail ⊆ lines := (List.mem_tails tail lines |>.mp among).subset
  cases tail with
  | nil => cases defined
  | cons line below =>
    obtain ⟨⟨tag, text⟩, found, rfl⟩ := Option.map_eq_some_iff.mp defined
    obtain ⟨own, rest⟩ := List.cons_subset.mp inside
    refine not_mem_joinWith (by decide) fun part chosen => ?_
    rcases List.mem_cons.mp (List.mem_of_mem_filter chosen) with rfl | continued
    · exact not_mem_of_subset (single line own) (footnote?_subset found)
    · obtain ⟨other, among, rfl⟩ := List.mem_map.mp continued
      have held := single other (rest ((List.takeWhile_sublist _).subset among))
      exact not_mem_of_subset held (trim_sublist other).subset

variable {anchor : Option Text} (named : ∀ name ∈ anchor, '\n' ∉ name)
include named

theorem single_table : ∀ t ∈ (Element.table (Table.parse lines anchor)).texts, '\n' ∉ t := by
  obtain ⟨options, rows, notes⟩ := sections_subset lines
  intro t member
  simp only [Element.texts, List.mem_append, Option.mem_toList] at member
  rcases member with (((title | titles) | cells) | texts) | own
  · obtain ⟨argument, found, rfl⟩ := Option.map_eq_some_iff.mp title
    obtain ⟨directive, first, found⟩ := Option.bind_eq_some_iff.mp found
    have held := single directive (List.mem_of_head? first)
    exact not_mem_of_subset held (List.Subset.trans (trim_sublist argument).subset (directiveArgument?_subset found))
  · cases header : (Table.parse lines anchor).header with
    | none => simp [Table.headerTitles, header] at titles
    | some value =>
      simp only [Table.headerTitles, header, Option.map_some, Option.getD_some] at titles
      obtain ⟨line, among, inside⟩ := optionValue?_subset header
      exact not_mem_of_subset (single line (options among)) (List.Subset.trans (fields_subset titles) inside)
  · obtain ⟨row, among, cell⟩ := List.mem_flatten.mp cells
    obtain ⟨line, inside, rfl⟩ := List.mem_map.mp among
    have held := single line (rows inside)
    exact not_mem_of_subset held (List.Subset.trans (fields_subset cell) (trim_sublist line).subset)
  · obtain ⟨footnote, among, rfl⟩ := List.mem_map.mp texts
    rw [footnotes_eq_latest] at among
    have defined := Keyed.mem_of_last? (Keyed.last?_of_mem_latest among)
    exact single_definedFootnotes (fun line inside => single line (notes inside)) footnote defined
  · exact named t own

theorem single_figure : ∀ t ∈ (Element.figure (Figure.parse lines anchor)).texts, '\n' ∉ t := by
  intro t member
  simp only [Element.texts, List.mem_append, Option.mem_toList, List.mem_cons] at member
  rcases member with path | rfl | own
  · obtain ⟨argument, found, rfl⟩ := Option.map_eq_some_iff.mp path
    obtain ⟨directive, first, found⟩ := Option.bind_eq_some_iff.mp found
    have held := single directive (List.mem_of_head? first)
    exact not_mem_of_subset held (List.Subset.trans (trim_sublist argument).subset (directiveArgument?_subset found))
  · refine not_mem_joinWith (by decide) fun part chosen => ?_
    have among := (List.dropWhile_sublist _).subset ((List.takeWhile_sublist _).subset chosen)
    obtain ⟨line, inside, rfl⟩ := List.mem_map.mp among
    exact not_mem_of_subset (single line (List.mem_of_mem_drop inside)) (trim_sublist line).subset
  · exact named t own

end

section
variable {lines : List Text} (single : ∀ line ∈ lines, '\n' ∉ line)
include single

theorem single_trimmed : ∀ line ∈ lines.map trimEnd, '\n' ∉ line := by
  intro line member
  obtain ⟨original, among, rfl⟩ := List.mem_map.mp member
  exact not_mem_of_subset (single original among) (trimEnd_prefix_self original).subset

theorem single_anchor {block : Block} (among : block ∈ blocks lines) : ∀ anchor ∈ block.anchor?, '\n' ∉ anchor := by
  intro anchor own
  have labels : anchor ∈ (lines.map trimEnd).filterMap Markup.anchor? := by
    rw [← anchors_parse]
    exact List.mem_filterMap.mpr ⟨_, List.mem_map_of_mem among, (anchor?_ofBlock block).trans own⟩
  obtain ⟨line, member, found⟩ := List.mem_filterMap.mp labels
  obtain ⟨rest, lead, ends⟩ := Option.bind_eq_some_iff.mp (Option.filter_eq_some_iff.mp found).1
  refine not_mem_of_subset (single_trimmed single line member) fun c inside => (trimEnd_prefix_self line).subset ?_
  rw [afterLead?_eq_some_iff.mp lead, beforeTail?_eq_some_iff.mp ends]
  exact List.mem_append_right _ (List.mem_append_left _ inside)

theorem single_texts : ∀ element ∈ parse lines, ∀ t ∈ element.texts, '\n' ∉ t := by
  intro element member
  obtain ⟨block, among, rfl⟩ := List.mem_map.mp member
  have named := single_anchor single among
  have own : ∀ line ∈ block.lines, '\n' ∉ line := fun line inside =>
    single_trimmed single line (lines_blocks_subset lines (List.mem_flatMap.mpr ⟨block, among, inside⟩))
  cases block with
  | header overline title underline => exact own
  | paragraph lines => exact own
  | label anchor => exact List.forall_mem_singleton.mpr (named anchor rfl)
  | table lines anchor => exact single_table own named
  | figure lines anchor => exact single_figure own named

end

end DocPress.Document
