/-
The non-blank lines of a source. They are read one by one from the lines of the text
(`contentFrom`), each is written again as it stands (`map_chars_contentLines`), and their numbers
grow strictly (`ascending_contentLines`).

What a source says is its non-blank lines as they stand. Two sources with the same non-blank lines
have the same lines up to their numbers (`exists_renumber`).
-/
import Mathlib.Logic.Function.Basic
import Stencil.Outline

namespace Stencil

/-! ## Lines of a text -/

/-- The non-blank lines among lines that are numbered from `number` on. -/
def contentFrom (number : Nat) (ls : List (List Char)) : List Line :=
  (ls.zipIdx number).filterMap fun (cs, number) =>
    if Text.allBlank cs then none else some (Line.ofChars number cs)

theorem contentLines_eq (source : String) :
    contentLines source = contentFrom 1 (Text.lines source.toList) := rfl

theorem contentFrom_append (number : Nat) (as bs : List (List Char)) :
    contentFrom number (as ++ bs) =
      contentFrom number as ++ contentFrom (number + as.length) bs := by
  rw [contentFrom, List.zipIdx_append, List.filterMap_append]
  rfl

theorem contentFrom_cons_of_blank {cs : List Char} (h : Text.allBlank cs = true) (number : Nat)
    (ls : List (List Char)) : contentFrom number (cs :: ls) = contentFrom (number + 1) ls := by
  simp [contentFrom, h]

theorem contentFrom_cons {cs : List Char} (h : Text.allBlank cs = false) (number : Nat)
    (ls : List (List Char)) :
    contentFrom number (cs :: ls) = Line.ofChars number cs :: contentFrom (number + 1) ls := by
  simp [contentFrom, h]

/-! ## Numbers -/

/-- The line under another number. -/
def Line.renumber (f : Nat → Nat) (line : Line) : Line := { line with number := f line.number }

/-- Lines further down have greater numbers. -/
theorem contentFrom_add (n number : Nat) (ls : List (List Char)) :
    contentFrom (number + n) ls = (contentFrom number ls).map (Line.renumber (· + n)) := by
  induction ls generalizing number with
  | nil => rfl
  | cons cs ls ih =>
    have hnext : number + n + 1 = number + 1 + n := by omega
    cases hblank : Text.allBlank cs with
    | true => rw [contentFrom_cons_of_blank hblank, contentFrom_cons_of_blank hblank, hnext, ih]
    | false =>
      rw [contentFrom_cons hblank, contentFrom_cons hblank, hnext, ih]
      rfl

/-- Line numbers grow strictly. -/
def Ascending (lines : List Line) : Prop := lines.Pairwise fun a b => a.number < b.number

theorem ascending_zipIdx (ls : List (List Char)) (number : Nat) :
    (ls.zipIdx number).Pairwise fun a b => a.2 < b.2 := by
  induction ls generalizing number with
  | nil => exact .nil
  | cons l ls ih =>
    rw [List.zipIdx_cons, List.pairwise_cons]
    refine ⟨fun p hp => ?_, ih (number + 1)⟩
    exact (List.mem_zipIdx hp).1

theorem ascending_contentLines (source : String) : Ascending (contentLines source) := by
  have hnumber : ∀ {cs : List Char} {n : Nat} {line : Line},
      (if Text.allBlank cs then none else some (Line.ofChars n cs)) = some line →
        line.number = n := by
    intro cs n line h
    split at h
    · cases h
    · cases h
      rfl
  refine (ascending_zipIdx _ 1).filterMap _ ?_
  rintro ⟨cs, m⟩ ⟨ds, n⟩ hlt a ha b hb
  rw [hnumber ha, hnumber hb]
  exact hlt

/-! ## Lines as they stand -/

/-- The line as it stands in the source, behind its tabs. -/
def Line.chars (line : Line) : List Char := List.replicate line.indent '\t' ++ line.text.toList

/-- The non-blank lines of a source as they stand. -/
def nonBlankLines (source : String) : List (List Char) :=
  (Text.lines source.toList).filter fun cs => !Text.allBlank cs

theorem chars_ofChars (number : Nat) (cs : List Char) : (Line.ofChars number cs).chars = cs := by
  have htabs : cs.takeWhile (· == '\t') =
      List.replicate (cs.takeWhile (· == '\t')).length '\t' := by
    rw [List.eq_replicate_iff]
    refine ⟨rfl, fun c hc => ?_⟩
    simpa using List.all_eq_true.mp List.all_takeWhile c hc
  rw [Line.chars, Line.ofChars, String.toList_ofList, ← htabs]
  exact List.takeWhile_append_dropWhile

theorem map_chars_contentFrom (number : Nat) (ls : List (List Char)) :
    (contentFrom number ls).map Line.chars = ls.filter fun cs => !Text.allBlank cs := by
  induction ls generalizing number with
  | nil => rfl
  | cons cs ls ih =>
    cases hblank : Text.allBlank cs with
    | true => rw [contentFrom_cons_of_blank hblank, ih, List.filter_cons_of_neg (by simp [hblank])]
    | false =>
      rw [contentFrom_cons hblank, List.map_cons, ih, chars_ofChars,
        List.filter_cons_of_pos (by simp [hblank])]

theorem map_chars_contentLines (source : String) :
    (contentLines source).map Line.chars = nonBlankLines source :=
  map_chars_contentFrom 1 _

/-- A line is what is read from the line as it stands. -/
def Line.Faithful (line : Line) : Prop := Line.ofChars line.number line.chars = line

theorem faithful_of_mem_contentLines {source : String} {line : Line}
    (h : line ∈ contentLines source) : line.Faithful := by
  obtain ⟨⟨cs, number⟩, -, hline⟩ := List.mem_filterMap.mp h
  dsimp only at hline
  split at hline
  · cases hline
  · cases hline
    rw [Line.Faithful, chars_ofChars]
    rfl

/-- Two lines that stand alike differ in their numbers only. -/
theorem Line.Faithful.eq_renumber {l m : Line} (hl : l.Faithful) (hm : m.Faithful)
    (h : l.chars = m.chars) {f : Nat → Nat} (hf : f l.number = m.number) : m = l.renumber f := by
  rw [← hm, ← hl, ← h]
  simp [Line.renumber, Line.ofChars, hf]

theorem map_renumber_update {ls : List Line} {l : Line} (h : ∀ m ∈ ls, l.number < m.number)
    (f : Nat → Nat) (number : Nat) :
    ls.map (Line.renumber (Function.update f l.number number)) = ls.map (Line.renumber f) := by
  refine List.map_congr_left fun m hm => ?_
  have hne : m.number ≠ l.number := Nat.ne_of_gt (h m hm)
  simp [Line.renumber, hne]

/-- **The same lines as they stand are the same lines up to their numbers.** -/
theorem exists_renumber {ls ms : List Line} (hls : ∀ l ∈ ls, l.Faithful)
    (hms : ∀ m ∈ ms, m.Faithful) (hascending : Ascending ls)
    (h : ls.map Line.chars = ms.map Line.chars) : ∃ f, ms = ls.map (Line.renumber f) := by
  induction ls generalizing ms with
  | nil =>
    refine ⟨id, ?_⟩
    simpa using h.symm
  | cons l ls ih =>
    cases ms with
    | nil => simp at h
    | cons m ms =>
      simp only [List.map_cons, List.cons.injEq] at h
      rw [List.forall_mem_cons] at hls hms
      obtain ⟨hbelow, hrest⟩ := List.pairwise_cons.mp hascending
      obtain ⟨f, hf⟩ := ih hls.2 hms.2 hrest h.2
      -- The first line is numbered apart from the others, whose numbers are greater.
      refine ⟨Function.update f l.number m.number, ?_⟩
      rw [List.map_cons, map_renumber_update hbelow, ← hf]
      congr 1
      exact hls.1.eq_renumber hms.1 h.1 (Function.update_self ..)

end Stencil
