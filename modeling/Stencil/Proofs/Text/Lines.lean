/-
Texts line by line. A text that has a line feed after each of its lines is cut into those lines
again (`lines_unlines`), unless a line holds a line feed itself or ends with a carriage return,
which would count as part of the line break. No line that a text is cut into holds a line feed.
Texts of whole lines are cut one by one (`lines_append`).
-/
import Stencil.Text.Lines

namespace Stencil.Text

/-- The text with a line feed after each line. -/
def unlines (ls : List (List Char)) : List Char := ls.flatMap fun l => l ++ ['\n']

@[simp] theorem unlines_nil : unlines [] = [] := rfl

@[simp] theorem unlines_cons (l : List Char) (ls : List (List Char)) :
    unlines (l :: ls) = l ++ '\n' :: unlines ls := by
  simp [unlines]

theorem unlines_append (ls ms : List (List Char)) : unlines (ls ++ ms) = unlines ls ++ unlines ms :=
  List.flatMap_append

theorem unlines_concat (ls : List (List Char)) (l : List Char) :
    unlines (ls ++ [l]) = unlines ls ++ (l ++ ['\n']) := by
  rw [unlines_append, unlines_cons, unlines_nil]

/-- A line that holds no line feed and does not end with a carriage return. -/
structure Unbroken (l : List Char) : Prop where
  no_feed : '\n' ∉ l
  no_return : l.getLast? ≠ some '\r'

theorem Unbroken.tail {c : Char} {l : List Char} (h : Unbroken (c :: l)) : Unbroken l where
  no_feed hmem := h.no_feed (List.mem_cons_of_mem c hmem)
  no_return hlast := by
    refine h.no_return ?_
    cases l with
    | nil => simp at hlast
    | cons d l => rwa [List.getLast?_cons_cons]

/-- A line is cut off at its line feed. -/
theorem lines_break {l : List Char} (h : Unbroken l) (cs : List Char) :
    lines (l ++ '\n' :: cs) = l :: lines cs := by
  induction l with
  | nil => rfl
  | cons c l ih =>
    have hfeed : c ≠ '\n' := by
      intro hc
      exact h.no_feed (by simp [hc])
    -- A carriage return at the start of the line stands before the line feed only if it ends it.
    have hreturn : ∀ ds : List Char, c = '\r' → l ++ '\n' :: cs = '\n' :: ds → False := by
      intro ds hc hl
      cases l with
      | nil => exact h.no_return (by simp [hc])
      | cons d l =>
        simp only [List.cons_append, List.cons.injEq] at hl
        exact h.no_feed (by simp [hl.1])
    rw [List.cons_append, lines, ih h.tail]
    · exact hfeed
    · exact hreturn

/-- A carriage return before the line feed is cut off with it. -/
theorem lines_break_return {l : List Char} (h : '\n' ∉ l) (cs : List Char) :
    lines (l ++ '\r' :: '\n' :: cs) = l :: lines cs := by
  induction l with
  | nil => rfl
  | cons c l ih =>
    simp only [List.mem_cons, not_or] at h
    have hreturn : ∀ ds : List Char, c = '\r' → l ++ '\r' :: '\n' :: cs = '\n' :: ds → False := by
      intro ds _ hl
      cases l with
      | nil => simp at hl
      | cons d l =>
        simp only [List.cons_append, List.cons.injEq] at hl
        exact h.2 (by simp [hl.1])
    rw [List.cons_append, lines, ih h.2]
    · exact Ne.symm h.1
    · exact hreturn

/-- What is cut off at a line feed begins the text before it. -/
theorem exists_lines_feed {l : List Char} (h : '\n' ∉ l) (cs : List Char) :
    ∃ m, m <+: l ∧ lines (l ++ '\n' :: cs) = m :: lines cs := by
  by_cases hreturn : l.getLast? = some '\r'
  · obtain ⟨m, rfl⟩ := List.getLast?_eq_some_iff.mp hreturn
    have hm : '\n' ∉ m := fun hmem => h (List.mem_append_left _ hmem)
    refine ⟨m, List.prefix_append m _, ?_⟩
    rw [List.append_assoc]
    exact lines_break_return hm cs
  · exact ⟨l, List.prefix_refl l, lines_break ⟨h, hreturn⟩ cs⟩

theorem lines_unlines_append {ls : List (List Char)} (h : ∀ l ∈ ls, Unbroken l) (cs : List Char) :
    lines (unlines ls ++ cs) = ls ++ lines cs := by
  induction ls with
  | nil => rfl
  | cons l ls ih =>
    rw [List.forall_mem_cons] at h
    rw [unlines_cons, List.append_assoc, List.cons_append, lines_break h.1, ih h.2,
      List.cons_append]

theorem lines_unlines {ls : List (List Char)} (h : ∀ l ∈ ls, Unbroken l) :
    lines (unlines ls) = ls := by
  simpa [lines] using lines_unlines_append h []

/-- No line of a text holds a line feed. -/
theorem feed_not_mem_lines {cs l : List Char} (h : l ∈ lines cs) : '\n' ∉ l := by
  fun_induction lines cs generalizing l with
  | case1 => simp at h
  | case2 cs ih | case3 cs ih =>
    rcases List.mem_cons.mp h with rfl | h
    · simp
    · exact ih h
  | case4 c cs hfeed hreturn hnil ih =>
    rw [List.mem_singleton.mp h]
    simpa using fun hc => hfeed hc.symm
  | case5 c cs hfeed hreturn m ms hlines ih =>
    rw [hlines] at ih
    rcases List.mem_cons.mp h with rfl | h
    · have hm := ih List.mem_cons_self
      simpa [hm] using fun hc => hfeed hc.symm
    · exact ih (List.mem_cons_of_mem m h)

/-! ## Whole lines -/

/-- The text is empty, or its last line is ended, so that no line goes on in what follows. -/
def WholeLines (cs : List Char) : Prop := cs = [] ∨ cs.getLast? = some '\n'

theorem wholeLines_concat (cs : List Char) : WholeLines (cs ++ ['\n']) := .inr List.getLast?_concat

theorem lines_ne_nil {cs : List Char} (h : cs ≠ []) : lines cs ≠ [] := by
  fun_cases lines cs with
  | case1 => exact absurd rfl h
  | case2 | case3 | case4 | case5 => simp

theorem WholeLines.tail {c : Char} {cs : List Char} (h : WholeLines (c :: cs)) : WholeLines cs := by
  cases cs with
  | nil => exact .inl rfl
  | cons d cs =>
    rcases h with h | h
    · cases h
    · exact .inr (by simpa using h)

/-- Whole lines stay as they are, whatever follows them. -/
theorem lines_append {cs : List Char} (h : WholeLines cs) (ds : List Char) :
    lines (cs ++ ds) = lines cs ++ lines ds := by
  fun_induction lines cs with
  | case1 => rfl
  | case2 cs ih =>
    have := ih h.tail
    rw [List.cons_append, lines, this, List.cons_append]
  | case3 cs ih =>
    have := ih h.tail.tail
    rw [List.cons_append, List.cons_append, lines, this, List.cons_append]
  | case4 c cs hfeed _ hlines _ =>
    -- Nothing follows the character, so it is the last one, and no line feed.
    have hcs : cs = [] := Classical.byContradiction fun hne => lines_ne_nil hne hlines
    rw [hcs] at h
    rcases h with h | h
    · cases h
    · exact (hfeed (by simpa using h)).elim
  | case5 c cs hfeed hreturn l ls hlines ih =>
    have hcs : cs ≠ [] := by
      rintro rfl
      cases hlines
    have hjoined := ih h.tail
    rw [hlines, List.cons_append] at hjoined
    rw [List.cons_append, lines, hjoined, List.cons_append]
    · exact hfeed
    · intro es hc hes
      obtain ⟨d, cs, rfl⟩ := List.exists_cons_of_ne_nil hcs
      rw [List.cons_append, List.cons.injEq] at hes
      exact hreturn cs hc (by rw [hes.1])

end Stencil.Text
