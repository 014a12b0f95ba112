import DocPress.Proofs.Catalog.Longest
import DocPress.Proofs.Text.Lines
import DocPress.Proofs.Text.Replaced

namespace DocPress.Text

theorem not_mem_of_subset {c : Char} {t whole : Text} (outside : c ∉ whole) (subset : t ⊆ whole) : c ∉ t :=
  fun member => outside (subset member)

theorem afterLead?_subset {lead t rest : Text} (found : afterLead? lead t = some rest) : rest ⊆ t := by
  rw [afterLead?_eq_some_iff.mp found]
  exact List.subset_append_right _ _

end DocPress.Text

namespace DocPress.Catalog
open Text Heading

/-! ## Reading a catalog -/

theorem mem_of_mem_blocks {ls block : List Text} {line : Text} (among : block ∈ blocks ls) (member : line ∈ block) :
    line ∈ ls := by
  induction ls using blocks.induct generalizing block with
  | case1 => simp [blocks] at among
  | case2 line' blank => simp [blocks, blank] at among
  | case3 line' blank =>
    have equal : block = [line'] := by simpa [blocks, blank] using among
    rwa [equal] at member
  | case4 line' next rest blank ih =>
    rw [blocks, if_pos blank] at among
    exact List.mem_cons_of_mem _ (ih among member)
  | case5 line' next rest blank ends ih =>
    rw [blocks, if_neg blank, if_pos ends, List.mem_cons] at among
    rcases among with rfl | among
    · simp [List.mem_singleton.mp member]
    · exact List.mem_cons_of_mem _ (ih among member)
  | case6 line' next rest blank ends none ih =>
    rw [blocks, if_neg blank, if_neg ends, none] at among
    have equal : block = [line'] := by simpa using among
    simp [equal] at member
    simp [member]
  | case7 line' next rest blank ends first more found ih =>
    rw [blocks, if_neg blank, if_neg ends, found] at among
    rcases List.mem_cons.mp among with rfl | among
    · rcases List.mem_cons.mp member with rfl | member
      · exact List.mem_cons_self
      · exact List.mem_cons_of_mem _ (ih (by rw [found]; exact List.mem_cons_self) member)
    · exact List.mem_cons_of_mem _ (ih (by rw [found]; exact List.mem_cons_of_mem _ among) member)

theorem quoted?_subset {t inner : Text} (found : quoted? t = some inner) : inner ⊆ t := by
  rw [quoted?] at found
  split at found
  · cases found
  · next rest opened =>
    split at found
    · cases found
    · next more closed =>
      cases found
      have outer : rest ⊆ t := fun c member =>
        (List.dropWhile_suffix _).subset (opened ▸ List.mem_cons_of_mem _ member)
      have reversed : more ⊆ rest.reverse := fun c member =>
        (List.dropWhile_suffix _).subset (closed ▸ List.mem_cons_of_mem _ member)
      exact fun c member => outer (List.mem_reverse.mp (reversed (List.mem_reverse.mp member)))

theorem unescape_subset (t : Text) : unescape t ⊆ t := by
  induction t using unescape.induct with
  | case1 rest ih | case2 rest ih =>
    exact List.cons_subset.mpr ⟨by simp, fun c member => by simp [ih member]⟩
  | case3 c rest quote backslash ih =>
    rw [unescape]
    · exact List.cons_subset_cons _ ih
    · exact quote
    · exact backslash
  | case4 => exact List.Subset.refl _

structure Message.Single (message : Message) : Prop where
  source : '\n' ∉ message.source
  target : '\n' ∉ message.target

theorem Message.Single.extend {message : Message} (single : message.Single) (part : Open) {t : Text}
    (outside : '\n' ∉ t) : (message.extend part t).Single := by
  have piece : '\n' ∉ (quoted? t).getD [] := by
    cases found : quoted? t with
    | none => exact List.not_mem_nil
    | some inner => exact not_mem_of_subset outside (quoted?_subset found)
  cases part with
  | source => exact ⟨by simp [Message.extend, single.source, piece], single.target⟩
  | target => exact ⟨single.source, by simp [Message.extend, single.target, piece]⟩
  | neither => exact ⟨single.source, single.target⟩

theorem Message.Single.read {message : Message} (single : message.Single) {line : Text} (outside : '\n' ∉ line) :
    (message.read line).Single := by
  have trimmed : '\n' ∉ trim line := not_mem_of_subset outside (trim_sublist line).subset
  rw [Message.read]
  split
  · exact single
  · split
    · next found => exact single.extend _ (not_mem_of_subset trimmed (afterLead?_subset found))
    · next found => exact single.extend _ (not_mem_of_subset trimmed (afterLead?_subset found))
    · split
      · exact single.extend _ trimmed
      · exact single.extend _ List.not_mem_nil

theorem Message.Single.foldl_read {block : List Text} {message : Message} (single : message.Single)
    (outside : ∀ line ∈ block, '\n' ∉ line) : (block.foldl Message.read message).Single := by
  induction block generalizing message with
  | nil => exact single
  | cons line block ih =>
    exact ih (single.read (outside line List.mem_cons_self)) fun l member => outside l (List.mem_cons_of_mem _ member)

theorem single_phrases {content : Text} {phrase : Phrase} (member : phrase ∈ phrases content) :
    '\n' ∉ phrase.target := by
  obtain ⟨block, among, found⟩ := List.mem_filterMap.mp member
  have outside : ∀ line ∈ block, '\n' ∉ line := fun line inside =>
    not_mem_of_mem_lines (mem_of_mem_blocks (List.mem_of_mem_drop among) inside)
  have start : Message.Single {} := ⟨List.not_mem_nil, List.not_mem_nil⟩
  have single := start.foldl_read outside
  rw [phraseOf?] at found
  split at found
  · cases found
  · cases found
    exact not_mem_of_subset single.target (unescape_subset _)

/-! ## Localizing -/

theorem single_localizeLine {catalog : Catalog} (targets : ∀ phrase ∈ catalog.entries, '\n' ∉ phrase.target)
    {line : Text} (outside : '\n' ∉ line) : '\n' ∉ catalog.localizeLine line := by
  rw [localizeLine]
  cases found : catalog.longestMatch? line with
  | none => exact outside
  | some phrase =>
    intro member
    rcases mem_replaceAll member with member | member
    · exact targets phrase (longestMatch?_eq_some_iff.mp found).mem member
    · exact outside ((trimEnd_prefix_self line).subset member)

theorem single_joinFrom {current : Text} {rest : List Text} (outside : '\n' ∉ current)
    (below : ∀ line ∈ rest, '\n' ∉ line) : ∀ line ∈ joinFrom current rest, '\n' ∉ line := by
  induction rest generalizing current with
  | nil => simpa [joinFrom] using outside
  | cons line rest ih =>
    obtain ⟨next, below⟩ := List.forall_mem_cons.mp below
    rw [joinFrom]
    split
    · refine ih ?_ below
      rw [List.mem_append, List.mem_cons]
      rintro (member | equal | member)
      · exact outside member
      · cases equal
      · exact next ((List.dropWhile_suffix _).subset member)
    · exact List.forall_mem_cons.mpr ⟨outside, ih next below⟩

theorem single_joinWrapped {lines : List Text} (single : ∀ line ∈ lines, '\n' ∉ line) :
    ∀ line ∈ joinWrapped lines, '\n' ∉ line := by
  cases lines with
  | nil => exact single
  | cons line rest =>
    obtain ⟨outside, below⟩ := List.forall_mem_cons.mp single
    exact single_joinFrom outside below

theorem single_resizeAt {lines : List Text} (single : ∀ line ∈ lines, '\n' ∉ line) (index : Nat) :
    ∀ line ∈ resizeAt lines index, '\n' ∉ line := by
  have fitted : ∀ title marker, '\n' ∉ underlineFor title marker := by
    intro title marker member
    have equal := List.eq_of_mem_replicate member
    cases marker <;> cases equal
  have replaced : ∀ (ls : List Text) (i : Nat) (title : Text) (marker : Marker), (∀ line ∈ ls, '\n' ∉ line) →
      ∀ line ∈ ls.set i (underlineFor title marker), '\n' ∉ line := by
    intro ls i title marker single line member
    rcases List.mem_or_eq_of_mem_set member with member | rfl
    · exact single line member
    · exact fitted title marker
  cases index with
  | zero => exact single
  | succ above =>
    rw [resizeAt]
    split
    · split
      · exact single
      · cases above with
        | zero => exact replaced _ _ _ _ single
        | succ before =>
          simp only
          split
          · exact replaced _ _ _ _ (replaced _ _ _ _ single)
          · exact replaced _ _ _ _ single
    · exact single

theorem single_localize {catalog : Catalog} (targets : ∀ phrase ∈ catalog.entries, '\n' ∉ phrase.target)
    {lines : List Text} (single : ∀ line ∈ lines, '\n' ∉ line) : ∀ line ∈ catalog.localize lines, '\n' ∉ line := by
  have localized : ∀ line ∈ (joinWrapped lines).map catalog.localizeLine, '\n' ∉ line := by
    intro line member
    obtain ⟨joined, among, rfl⟩ := List.mem_map.mp member
    exact single_localizeLine targets (single_joinWrapped single joined among)
  rw [localize, resizeAll]
  exact List.foldlRecOn (motive := fun lines => ∀ line ∈ lines, '\n' ∉ line) _ _ localized
    fun _ single _ _ => single_resizeAt single _

end DocPress.Catalog
