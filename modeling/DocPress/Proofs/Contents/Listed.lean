import DocPress.Proofs.Document.Overline

/-!
# Listed headings

Whether a line belongs to a listed heading is said of its place: a listed title over an underline is one, unless the line
is itself the underline of a listed heading (`headsAt`), and a line that stands alone above it and equals its underline is
its overline (`overlineAt`). Inlining writes the island for each title, nothing for the other lines of such a heading, and
all other lines (`inlineListed_eq`). An overline is written before its heading is seen, so it is pending at the title: it is
the last line that has been written, and the one that is taken back (`pending_of_heads`).
-/

namespace DocPress.Contents
open Text Heading

def listedAt (titles lines : List Text) (i : Nat) : Bool :=
  (lines[i]?).any (fun line => titles.contains (trim line)) && (lines[i + 1]?).any isUnderline

def headsAt (titles lines : List Text) : Nat → Bool
  | 0 => listedAt titles lines 0
  | i + 1 => listedAt titles lines (i + 1) && !headsAt titles lines i

def underlinesAt (titles lines : List Text) : Nat → Bool
  | 0 => false
  | i + 1 => headsAt titles lines i

/-- Whether line `i` is the overline of a listed heading: it equals the underline, and is the first or follows a blank
line. -/
def overlineAt (titles lines : List Text) (i : Nat) : Bool :=
  headsAt titles lines (i + 1) && (lines[i]?).map trimEnd == (lines[i + 2]?).map trimEnd &&
    (i == 0 || (lines[i - 1]?).any isBlank)

def shownAt (titles lines : List Text) (line : Text) (i : Nat) : List Text :=
  if headsAt titles lines i then unnumbered (trim line)
  else if underlinesAt titles lines i || overlineAt titles lines i then []
  else [trimEnd line]

def shownFor (titles lines before : List Text) : List Text :=
  before.reverse.zipIdx.flatMap fun (line, i) => shownAt titles lines line i

def pending (titles lines : List Text) : List Text → List Text
  | [] => []
  | line :: above => if overlineAt titles lines above.length then [trimEnd line] else []

/-- The places that inlining comes to, with the lines before them, from the nearest up, and those that it has written. -/
inductive Reached (titles lines : List Text) : List Text → List Text → List Text → Prop
  | start : Reached titles lines [] [] lines
  | ordinary {before done line rest} : Reached titles lines before done (line :: rest) →
      (∀ next ∈ rest.head?, isListed titles line next = false) →
      Reached titles lines (line :: before) (done ++ [trimEnd line]) rest
  | heading {before done line next rest} : Reached titles lines before done (line :: next :: rest) →
      isListed titles line next = true →
      Reached titles lines (next :: line :: before)
        ((if hasOverline before next then done.dropLast else done) ++ unnumbered (trim line)) rest

structure Inlined (titles lines before done rest : List Text) : Prop where
  whole : lines = before.reverse ++ rest
  fresh : underlinesAt titles lines before.length = false
  written : done = shownFor titles lines before ++ pending titles lines before

section
variable {titles lines before done rest : List Text} {line next : Text}

theorem Reached.run (reached : Reached titles lines before done rest) :
    inlineFrom titles before done rest = inlineListed titles lines := by
  induction reached with
  | start => rfl
  | @ordinary before done line rest _ plain ih =>
    rw [← ih]
    cases rest with
    | nil => simp [inlineFrom]
    | cons next rest => rw [inlineFrom, plain next rfl, if_neg Bool.false_ne_true]
  | heading _ listed ih => rw [← ih, inlineFrom, if_pos listed]

/-! ## Lines by their places -/

theorem getElem?_below (whole : lines = before.reverse ++ rest) (i : Nat) : lines[before.length + i]? = rest[i]? := by
  rw [whole, List.getElem?_append_right (by simp)]
  simp

theorem listedAt_cons (whole : lines = before.reverse ++ line :: rest) :
    listedAt titles lines before.length = rest.head?.any (isListed titles line) := by
  have here := getElem?_below whole 0
  rw [listedAt, getElem?_below whole 1, ← Nat.add_zero before.length, here]
  cases rest with
  | nil => simp
  | cons next rest => simp [isListed]

theorem headsAt_of_fresh {i : Nat} (fresh : underlinesAt titles lines i = false) :
    headsAt titles lines i = listedAt titles lines i := by
  cases i with
  | zero => rfl
  | succ i =>
    rw [underlinesAt] at fresh
    rw [headsAt, fresh, Bool.not_false, Bool.and_true]

theorem shownFor_cons (line : Text) (before : List Text) : shownFor titles lines (line :: before) =
    shownFor titles lines before ++ shownAt titles lines line before.length := by
  simp [shownFor, List.zipIdx_append]

theorem overlineAt_iff {above : List Text} {overline : Text}
    (whole : lines = above.reverse ++ overline :: line :: next :: rest) :
    overlineAt titles lines above.length = true ↔ headsAt titles lines (above.length + 1) = true ∧
      trimEnd overline = trimEnd next ∧ ∀ separator ∈ above.head?, isBlank separator = true := by
  have here : lines[above.length]? = some overline := getElem?_below whole 0
  have underline : lines[above.length + 2]? = some next := getElem?_below whole 2
  have separated : (above.length == 0 || (lines[above.length - 1]?).any isBlank) = true ↔
      ∀ separator ∈ above.head?, isBlank separator = true := by
    cases above with
    | nil => simp
    | cons separator above =>
      have split : lines = above.reverse ++ separator :: overline :: line :: next :: rest := by simpa using whole
      have there : lines[above.length]? = some separator := getElem?_below split 0
      simp [there]
  rw [overlineAt, here, underline, Bool.and_eq_true, Bool.and_eq_true, separated, and_assoc]
  simp

theorem hasOverline_iff_overlineAt (whole : lines = before.reverse ++ line :: next :: rest)
    (heads : headsAt titles lines before.length = true) :
    hasOverline before next = true ↔ ∃ overline above, before = overline :: above ∧
      trimEnd overline = trimEnd next ∧ overlineAt titles lines above.length = true := by
  rw [hasOverline_iff]
  cases before with
  | nil => simp
  | cons overline above =>
    have split : lines = above.reverse ++ overline :: line :: next :: rest := by simpa using whole
    rw [List.length_cons] at heads
    simp [overlineAt_iff split, heads, List.head?_eq_getElem?]

theorem pending_of_heads (whole : lines = before.reverse ++ line :: next :: rest)
    (heads : headsAt titles lines before.length = true) :
    (if hasOverline before next then (shownFor titles lines before ++ pending titles lines before).dropLast
      else shownFor titles lines before ++ pending titles lines before) = shownFor titles lines before := by
  by_cases overlined : hasOverline before next = true
  · obtain ⟨overline, above, rfl, -, own⟩ := (hasOverline_iff_overlineAt whole heads).mp overlined
    rw [if_pos overlined, pending, if_pos own, List.dropLast_concat]
  · have none : pending titles lines before = [] := by
      cases before with
      | nil => rfl
      | cons overline above =>
        have split : lines = above.reverse ++ overline :: line :: next :: rest := by simpa using whole
        refine if_neg fun own => overlined ((hasOverline_iff_overlineAt whole heads).mpr ⟨overline, above, rfl, ?_, own⟩)
        exact ((overlineAt_iff split).mp own).2.1
    rw [if_neg overlined, none, List.append_nil]

/-! ## One step of inlining -/

theorem inlined_start : Inlined titles lines [] [] lines where
  whole := rfl
  fresh := rfl
  written := rfl

theorem Inlined.listed (inlined : Inlined titles lines before done (line :: rest)) :
    headsAt titles lines before.length = rest.head?.any (isListed titles line) := by
  rw [headsAt_of_fresh inlined.fresh, listedAt_cons inlined.whole]

theorem overlineAt_eq_false {i : Nat} (plain : headsAt titles lines (i + 1) = false) :
    overlineAt titles lines i = false := by
  rw [overlineAt, plain, Bool.false_and, Bool.false_and]

theorem pending_of_plain (plain : headsAt titles lines before.length = false) : pending titles lines before = [] := by
  cases before with
  | nil => rfl
  | cons line above => rw [pending, overlineAt_eq_false plain, if_neg Bool.false_ne_true]

theorem Inlined.ordinary (inlined : Inlined titles lines before done (line :: rest))
    (plain : ∀ next ∈ rest.head?, isListed titles line next = false) :
    Inlined titles lines (line :: before) (done ++ [trimEnd line]) rest := by
  have heads : headsAt titles lines before.length = false := by
    rw [inlined.listed, Option.any_eq_false]
    exact plain
  refine ⟨by simpa using inlined.whole, heads, ?_⟩
  rw [inlined.written, pending_of_plain heads, List.append_nil, shownFor_cons, pending, shownAt, heads, inlined.fresh,
    Bool.false_or, if_neg Bool.false_ne_true]
  -- the line is written now, and belongs to its heading if it is an overline
  split <;> simp

theorem Inlined.heading (filled : ∀ title ∈ titles, title ≠ [])
    (inlined : Inlined titles lines before done (line :: next :: rest)) (listed : isListed titles line next = true) :
    Inlined titles lines (next :: line :: before)
      ((if hasOverline before next then done.dropLast else done) ++ unnumbered (trim line)) rest := by
  have heads : headsAt titles lines before.length = true := inlined.listed.trans listed
  have passed : headsAt titles lines (before.length + 1) = false := by rw [headsAt, heads, Bool.not_true, Bool.and_false]
  have visible : isBlank line = false := by
    rw [isListed, Bool.and_eq_true, List.contains_iff_mem] at listed
    rw [← Bool.not_eq_true, ← trim_eq_nil_iff]
    exact filled _ listed.1
  -- the title stands directly above the underline, so that is no overline of the next heading
  have closed : overlineAt titles lines (before.length + 1) = false := by
    have there : lines[before.length]? = some line := getElem?_below inlined.whole 0
    rw [overlineAt, Nat.add_sub_cancel, there, Option.any_some, visible, Bool.and_or_distrib_left]
    simp
  refine ⟨by simpa using inlined.whole, passed, ?_⟩
  rw [inlined.written, pending_of_heads inlined.whole heads, shownFor_cons, shownFor_cons, pending, List.length_cons, closed,
    if_neg Bool.false_ne_true, List.append_nil, shownAt, if_pos heads, shownAt, passed, underlinesAt, heads]
  simp

theorem Reached.inlined (filled : ∀ title ∈ titles, title ≠ []) (reached : Reached titles lines before done rest) :
    Inlined titles lines before done rest := by
  induction reached with
  | start => exact inlined_start
  | ordinary _ plain ih => exact ih.ordinary plain
  | heading _ listed ih => exact ih.heading filled listed

/-! ## All of a document -/

theorem exists_reached (reached : Reached titles lines before done rest) :
    ∃ behind, Reached titles lines behind (inlineFrom titles before done rest) [] := by
  induction before, done, rest using inlineFrom.induct titles with
  | case1 before done => exact ⟨before, by rwa [inlineFrom]⟩
  | case2 before done line => exact ⟨_, by rw [inlineFrom]; exact reached.ordinary (by simp)⟩
  | case3 before done line next rest listed kept ih =>
    rw [inlineFrom, if_pos listed]
    exact ih (reached.heading listed)
  | case4 before done line next rest plain ih =>
    rw [inlineFrom, if_neg plain]
    exact ih (reached.ordinary (by simpa using plain))

theorem Inlined.done_eq (inlined : Inlined titles lines before done []) :
    done = lines.zipIdx.flatMap fun (line, i) => shownAt titles lines line i := by
  have whole : lines = before.reverse := by rw [inlined.whole, List.append_nil]
  have past : headsAt titles lines before.length = false := by
    rw [headsAt_of_fresh inlined.fresh, listedAt, List.getElem?_eq_none (by simp [whole])]
    rfl
  rw [inlined.written, pending_of_plain past, List.append_nil, shownFor, ← whole]

end

/-- Inlining writes an island for each listed heading, nothing for the other lines of these, and all other lines. Where it
takes back what it has written last, this is the overline of the heading, and nothing else. -/
theorem inlineListed_eq {titles lines : List Text} (filled : ∀ title ∈ titles, title ≠ []) :
    inlineListed titles lines = (lines.zipIdx.flatMap fun (line, i) => shownAt titles lines line i) ∧
      ∀ before done line next rest, Reached titles lines before done (line :: next :: rest) →
        inlineFrom titles before done (line :: next :: rest) = inlineListed titles lines ∧
        (isListed titles line next = true → hasOverline before next = true → ∃ overline above,
          before = overline :: above ∧ overlineAt titles lines above.length = true ∧
          done = (before.reverse.zipIdx.flatMap fun (line, i) => shownAt titles lines line i) ++ [trimEnd overline]) := by
  constructor
  · have atStart : Reached titles lines [] [] lines := .start
    obtain ⟨behind, reached⟩ := exists_reached atStart
    exact (reached.inlined filled).done_eq
  · intro before done line next rest reached
    refine ⟨reached.run, fun listed overlined => ?_⟩
    have inlined := reached.inlined filled
    have heads : headsAt titles lines before.length = true := inlined.listed.trans listed
    obtain ⟨overline, above, rfl, -, own⟩ := (hasOverline_iff_overlineAt inlined.whole heads).mp overlined
    refine ⟨overline, above, rfl, own, ?_⟩
    rw [inlined.written, pending, if_pos own]
    rfl

theorem inlineListed_eq_adjacent :
    let titles := ["About".toList, "Index".toList]
    let lines := ["Text", "", "=====", "About", "=====", "Index", "====="].map String.toList
    (∀ title ∈ titles, title ≠ []) ∧
      inlineListed titles lines =
        ["Text", "", "", ".. raw:: latex", "", "    \\section*\x7bAbout\x7d", "", "", ".. raw:: latex", "",
          "    \\section*\x7bIndex\x7d", ""].map String.toList := by
  intro titles lines
  have filled : ∀ title ∈ titles, title ≠ [] := by decide
  exact ⟨filled, (inlineListed_eq filled).1.trans (by decide +kernel)⟩

end DocPress.Contents
