import DocPress.Proofs.Catalog.Fitted
import DocPress.Proofs.Catalog.Joined
import DocPress.Proofs.Text.Replaced

namespace DocPress.Catalog
open Text Heading

section
variable {lines : List Text} (flat : ∀ line ∈ lines, isUnderline line = false)
include flat

theorem resizeAll_of_flat : resizeAll lines = lines := by
  rw [resizeAll_eq_fitted]
  apply List.ext_getElem?
  intro i
  cases found : lines[i]? with
  | none =>
    rw [List.getElem?_eq_none_iff, length_fitted]
    exact List.getElem?_eq_none_iff.mp found
  | some line =>
    have plain : underlineMarker? line = none := by
      simpa [isUnderline] using flat line (List.mem_of_getElem? found)
    exact getElem?_fitted_of_plain found plain _

end

section
variable {phrase : Phrase} (source : trimEnd phrase.source = phrase.source) (target : trimEnd phrase.target = phrase.target)
  (filled : phrase.source ≠ []) (filled' : phrase.target ≠ [])
include source target filled filled'

theorem replaceAll_trimEnd_of_trimmed (line : Text) :
    replaceAll phrase.source phrase.target (trimEnd line) = trimEnd (replaceAll phrase.source phrase.target line) := by
  rw [replaceAll_trimEnd_eq_iff]
  exact ⟨trimEnd_replaceAll target filled' (trimEnd_trimEnd line), .inl (occurrences_trimEnd source filled line)⟩

end

/-- A line without a phrase stays. The longest phrase in a line is replaced everywhere in it, and no white space is left at
the end, exactly if replacing leaves none behind the line without its own, and that line has as many occurrences as the whole
line, or source and target differ in white space at their ends only. A phrase that is only in the whole line is not replaced. -/
theorem localize_substituted_iff {catalog : Catalog} {lines : List Text}
    (flat : ∀ line ∈ substituted catalog lines, isUnderline line = false) :
    (catalog.localize lines).length = (joinWrapped lines).length ∧
      ∀ (i : Nat) (line : Text), (joinWrapped lines)[i]? = some line →
        (catalog.longestMatch? line = none → (catalog.localize lines)[i]? = some line) ∧
        ∀ phrase, catalog.longestMatch? line = some phrase →
          ((catalog.localize lines)[i]? = some (trimEnd (replaceAll phrase.source phrase.target line)) ↔
            trimEnd (replaceAll phrase.source phrase.target (trimEnd line)) =
                replaceAll phrase.source phrase.target (trimEnd line) ∧
              (occurrences phrase.source (trimEnd line) = occurrences phrase.source line ∨
                trimEnd phrase.target = trimEnd phrase.source)) ∧
          (trimEnd phrase.source = phrase.source → trimEnd phrase.target = phrase.target → phrase.source ≠ [] →
            phrase.target ≠ [] →
            (catalog.localize lines)[i]? = some (trimEnd (replaceAll phrase.source phrase.target line))) ∧
          (occurs phrase.source (trimEnd line) = false → (catalog.localize lines)[i]? = some (trimEnd line)) := by
  have pass : catalog.localize lines = substituted catalog lines := resizeAll_of_flat flat
  rw [pass]
  refine ⟨List.length_map _, fun i line found => ?_⟩
  have shown : (substituted catalog lines)[i]? = some (catalog.localizeLine line) := by
    rw [substituted, List.getElem?_map, found, Option.map_some]
  rw [shown]
  refine ⟨fun none => ?_, fun phrase matched => ?_⟩
  · rw [localizeLine, none]
  · have replaced : catalog.localizeLine line = replaceAll phrase.source phrase.target (trimEnd line) := by
      rw [localizeLine, matched]
    rw [replaced, Option.some.injEq, Option.some.injEq]
    exact ⟨replaceAll_trimEnd_eq_iff _ _ _, fun source target filled filled' =>
      replaceAll_trimEnd_of_trimmed source target filled filled' line, replaceAll_of_not_occurs⟩

theorem localize_substituted_iff_wrapped :
    let catalog : Catalog := .ofList [⟨"file".toList, "Akte".toList⟩, ⟨"the file".toList, "die Datei".toList⟩]
    (catalog.localize ["Open the file,".toList, "close the file ".toList])[0]? =
      some "Open die Datei, close die Datei".toList := by
  intro catalog
  have flat : ∀ line ∈ substituted catalog ["Open the file,".toList, "close the file ".toList],
      isUnderline line = false := by decide +kernel
  have joined : (joinWrapped ["Open the file,".toList, "close the file ".toList])[0]? =
      some "Open the file, close the file ".toList := by decide +kernel
  have matched : catalog.longestMatch? "Open the file, close the file ".toList =
      some ⟨"the file".toList, "die Datei".toList⟩ := by decide +kernel
  have shown := (((localize_substituted_iff flat).2 0 _ joined).2 _ matched).1.mpr (by decide +kernel)
  exact shown.trans (by decide +kernel)

theorem localize_not_substituted_spaced :
    ¬∀ (catalog : Catalog) (lines : List Text), (∀ line ∈ substituted catalog lines, isUnderline line = false) →
      ∀ (i : Nat) (line : Text), (joinWrapped lines)[i]? = some line →
        (catalog.localize lines)[i]? = some
          (match catalog.longestMatch? line with
          | some phrase => trimEnd (replaceAll phrase.source phrase.target line)
          | none => line) := by
  intro substituted
  have first := substituted (.ofList [⟨"foo ".toList, "bar".toList⟩]) ["foo ".toList] (by decide +kernel) 0 "foo ".toList
    (by decide +kernel)
  revert first
  decide +kernel

end DocPress.Catalog
