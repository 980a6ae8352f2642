/-
Facts about lists of any kind that are used in several places: the first element at which a
property of the elements read so far is lost, a list without repetitions, a filter for either of
two properties, and what a run over a list says about its elements.
-/
import Mathlib.Data.List.Induction

namespace Stencil.Lists

variable {α β ε : Type}

/-- A property of lists holds of the whole list, or there is a first element with which it is
lost. -/
theorem holds_or_exists_first {P : List α → Prop} (hnil : P []) (l : List α) :
    P l ∨ ∃ before a after, l = before ++ a :: after ∧ P before ∧ ¬ P (before ++ [a]) := by
  induction l using List.reverseRecOn with
  | nil => exact .inl hnil
  | append_singleton l a ih =>
    rcases ih with hl | ⟨before, b, after, rfl, hbefore, hb⟩
    · by_cases ha : P (l ++ [a])
      · exact .inl ha
      · exact .inr ⟨l, a, [], rfl, hl, ha⟩
    · exact .inr ⟨before, b, after ++ [a], by simp, hbefore, hb⟩

/-- A filter for either of two properties, when no element with the first stands behind one with
the second. -/
theorem filter_or {l : List α} {p q : α → Bool} (h : l.Pairwise fun a b => q a → ¬ p b)
    (hdisjoint : ∀ a ∈ l, q a → ¬ p a) :
    l.filter (fun a => p a || q a) = l.filter p ++ l.filter q := by
  induction l with
  | nil => rfl
  | cons a l ih =>
    obtain ⟨hfirst, hrest⟩ := List.pairwise_cons.mp h
    rw [List.forall_mem_cons] at hdisjoint
    have hl := ih hrest hdisjoint.2
    by_cases hq : q a = true
    · have hp : l.filter p = [] := List.filter_eq_nil_iff.mpr fun b hb => hfirst b hb hq
      rw [hp, List.nil_append] at hl
      simp [hq, hdisjoint.1 hq, hp, hl]
    · by_cases hp : p a = true <;> simp [hq, hp, hl]

/-! ## Repetitions -/

theorem eraseDups_concat [BEq α] [LawfulBEq α] (l : List α) (a : α) :
    (l ++ [a]).eraseDups = if a ∈ l then l.eraseDups else l.eraseDups ++ [a] := by
  rw [List.eraseDups_append]
  by_cases hmem : a ∈ l <;> simp [List.removeAll, hmem, List.eraseDups_cons]

theorem nodup_eraseDups [BEq α] [LawfulBEq α] (l : List α) :
    l.eraseDups.Nodup := by
  induction l using List.reverseRecOn with
  | nil => exact List.nodup_nil
  | append_singleton l a ih =>
    rw [eraseDups_concat]
    split
    · exact ih
    · next hmem =>
      rw [← List.mem_eraseDups] at hmem
      exact List.nodup_append.mpr ⟨ih, by simp, fun b hb c hc hbc =>
        hmem (List.mem_singleton.mp hc ▸ hbc ▸ hb)⟩

/-! ## Runs that may fail -/

/-- Every result of a run that goes through comes from one of the elements. -/
theorem mem_of_mapM_eq_ok {f : α → Except ε β} {as : List α} {bs : List β}
    (h : as.mapM f = .ok bs) : ∀ b ∈ bs, ∃ a ∈ as, f a = .ok b := by
  induction as generalizing bs with
  | nil =>
    simp only [List.mapM_nil] at h
    cases h
    simp
  | cons a as ih =>
    simp only [List.mapM_cons, bind, Except.bind] at h
    split at h
    · cases h
    · next b hb =>
      split at h
      · cases h
      · next bs' hbs =>
        cases h
        rw [List.forall_mem_cons]
        refine ⟨⟨a, List.mem_cons_self, hb⟩, fun b' hb' => ?_⟩
        obtain ⟨a', ha', heq⟩ := ih hbs b' hb'
        exact ⟨a', List.mem_cons_of_mem a ha', heq⟩

/-- A run that fails does so at one of the elements. -/
theorem mem_of_mapM_eq_error {f : α → Except ε β} {as : List α} {e : ε}
    (h : as.mapM f = .error e) : ∃ a ∈ as, f a = .error e := by
  induction as with
  | nil => cases h
  | cons a as ih =>
    simp only [List.mapM_cons, bind, Except.bind] at h
    split at h
    · next hfirst =>
      cases h
      exact ⟨a, List.mem_cons_self, hfirst⟩
    · split at h
      · next hrest =>
        cases h
        obtain ⟨b, hb, heq⟩ := ih hrest
        exact ⟨b, List.mem_cons_of_mem a hb, heq⟩
      · cases h

end Stencil.Lists
