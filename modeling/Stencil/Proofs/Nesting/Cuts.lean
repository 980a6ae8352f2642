/-
Cutting a text loses nothing. A text that was cut at a delimiter, or at the parenthesis that closes
a group, is what stands before it, the delimiter and what stands after it; a text that was split is
its parts with the separator between them.
-/
import Mathlib.Data.List.Basic
import Stencil.Nesting

namespace Stencil.Nesting

variable {s : Nesting} {cs : List Char} {k : Cut}

theorem eq_of_findFrom {delimiters : List Char} (h : s.findFrom delimiters cs = some k) :
    cs = k.before ++ k.delimiter :: k.after := by
  induction cs generalizing s k with
  | nil => simp [findFrom] at h
  | cons c cs ih =>
    simp only [findFrom] at h
    split at h
    · cases h
      rfl
    · obtain ⟨k', hk, rfl⟩ := Option.map_eq_some_iff.mp h
      rw [List.cons_append, ← ih hk]

theorem eq_of_closeFrom (h : s.closeFrom cs = some k) :
    cs = k.before ++ k.delimiter :: k.after := by
  induction cs generalizing s k with
  | nil => simp [closeFrom] at h
  | cons c cs ih =>
    simp only [closeFrom] at h
    split at h
    · cases h
      rfl
    · obtain ⟨k', hk, rfl⟩ := Option.map_eq_some_iff.mp h
      rw [List.cons_append, ← ih hk]

theorem eq_of_closeGroup? (h : closeGroup? cs = some k) :
    cs = '(' :: (k.before ++ k.delimiter :: k.after) := by
  unfold closeGroup? at h
  split at h
  · rw [← eq_of_closeFrom h]
  · cases h

/-- What stands between the parentheses of a group is part of the text. -/
theorem before_subset_of_closeGroup? (h : closeGroup? cs = some k) : k.before ⊆ cs := by
  rw [eq_of_closeGroup? h]
  intro c hc
  simp [hc]

theorem after_subset_of_closeGroup? (h : closeGroup? cs = some k) : k.after ⊆ cs := by
  rw [eq_of_closeGroup? h]
  intro c hc
  simp [hc]

/-- The parts of a text, with the separator between them, make up the text. -/
theorem intercalate_of_splitFrom {separator : Char} {parts : List (List Char)}
    (h : s.splitFrom separator cs = some parts) :
    parts ≠ [] ∧ [separator].intercalate parts = cs := by
  induction cs generalizing s parts with
  | nil =>
    simp only [splitFrom] at h
    split at h
    · cases h
      exact ⟨by simp, by simp⟩
    · cases h
  | cons c cs ih =>
    obtain ⟨parts', hparts, rfl⟩ := Option.map_eq_some_iff.mp h
    obtain ⟨hne, hjoin⟩ := ih hparts
    obtain ⟨p, ps, rfl⟩ := List.exists_cons_of_ne_nil hne
    split
    · next hsep =>
      simp only [Bool.and_eq_true, beq_iff_eq] at hsep
      refine ⟨by simp, ?_⟩
      rw [List.intercalate_cons_of_ne_nil (by simp), hjoin, hsep.2]
      rfl
    · refine ⟨by simp [consFirst], ?_⟩
      rw [← hjoin]
      cases ps with
      | nil => simp [consFirst]
      | cons q qs => simp [consFirst, List.intercalate_cons_of_ne_nil]

theorem subset_intercalate (sep : List Char) {parts : List (List Char)} {p : List Char}
    (hp : p ∈ parts) : p ⊆ sep.intercalate parts := by
  induction parts with
  | nil => simp at hp
  | cons q qs ih =>
    intro c hc
    by_cases hqs : qs = []
    · subst hqs
      rw [List.mem_singleton.mp hp] at hc
      simpa using hc
    · rw [List.intercalate_cons_of_ne_nil hqs]
      rcases List.mem_cons.mp hp with rfl | hp
      · simp [hc]
      · simp [ih hp hc]

theorem subset_of_splitTopLevel? {separator : Char} {parts : List (List Char)}
    (h : splitTopLevel? cs separator = some parts) : ∀ p ∈ parts, p ⊆ cs := by
  intro p hp
  rw [← (intercalate_of_splitFrom h).2]
  exact subset_intercalate [separator] hp

end Stencil.Nesting
