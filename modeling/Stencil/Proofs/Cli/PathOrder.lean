/-
The order of paths. Parts are ordered by rank and then by name, paths part by part, so both orders
are transitive and total. Listing paths once each therefore gives them in strictly increasing
order, and no path that was given is missing from the list.
-/
import Stencil.Cli.Path

namespace Stencil.Cli

open Std

namespace Part

/-- What parts of the same rank are compared by. -/
def text : Part → String
  | name s => s
  | _ => ""

theorem order_eq_compareLex : order = compareLex (compareOn rank) (compareOn text) := by
  funext a b
  cases a <;> cases b <;> rfl

instance : TransCmp order := by
  rw [order_eq_compareLex]
  infer_instance

end Part

namespace Path

theorem orderParts_eq_compareLex (as bs : List Part) :
    orderParts as bs = as.compareLex Part.order bs := by
  induction as generalizing bs with
  | nil => cases bs <;> rfl
  | cons a as ih =>
    cases bs with
    | nil => rfl
    | cons b bs =>
      rw [orderParts, List.compareLex_cons_cons, ih]

instance : TransCmp orderParts := by
  have heq : orderParts = List.compareLex Part.order := by
    funext as bs
    exact orderParts_eq_compareLex as bs
  rw [heq]
  infer_instance

instance : TransCmp order where
  eq_swap {a b} := by
    show orderParts (parts a) (parts b) = (orderParts (parts b) (parts a)).swap
    exact OrientedCmp.eq_swap
  isLE_trans {a b c} hab hbc := by
    show (orderParts (parts a) (parts c)).isLE
    exact TransCmp.isLE_trans hab hbc

/-- A list of the paths that were given: in order, none twice, and none left out. -/
structure Lists (listed given : List String) : Prop where
  increasing : listed.Pairwise fun a b => order a b = .lt
  given_of_mem : ∀ p ∈ listed, p ∈ given
  exists_mem : ∀ p ∈ given, ∃ q ∈ listed, order q p = .eq

theorem dropRepeats_lists {paths : List String}
    (h : paths.Pairwise fun a b => (order a b).isLE) : Lists (dropRepeats paths) paths := by
  induction paths with
  | nil => exact ⟨by simp [dropRepeats], by simp [dropRepeats], by simp⟩
  | cons p ps ih =>
    obtain ⟨hhead, htail⟩ := List.pairwise_cons.mp h
    obtain ⟨hincreasing, hgiven, hexists⟩ := ih htail
    have hself : order p p = .eq := ReflCmp.compare_self
    rw [dropRepeats]
    cases hdrop : dropRepeats ps with
    | nil =>
      have hnone : ps = [] := by
        rw [hdrop] at hexists
        exact List.eq_nil_iff_forall_not_mem.mpr fun x hx => by simpa using hexists x hx
      rw [hnone]
      exact ⟨by simp, by simp, by simp [hself]⟩
    | cons q qs =>
      rw [hdrop] at hincreasing hgiven hexists
      obtain ⟨hq, hqs⟩ := List.pairwise_cons.mp hincreasing
      by_cases heq : order p q = .eq
      · -- The head takes the place of its equal: what follows that follows it too.
        simp only [heq, beq_self_eq_true, ↓reduceIte]
        refine ⟨List.pairwise_cons.mpr ⟨?_, hqs⟩, by grind, ?_⟩
        · intro x hx
          exact TransCmp.lt_of_eq_of_lt heq (hq x hx)
        · intro x hx
          rcases List.mem_cons.mp hx with rfl | hx
          · exact ⟨x, List.mem_cons_self, hself⟩
          · obtain ⟨y, hy, hyx⟩ := hexists x hx
            rcases List.mem_cons.mp hy with rfl | hy
            · exact ⟨p, List.mem_cons_self, TransCmp.eq_trans heq hyx⟩
            · exact ⟨y, List.mem_cons_of_mem _ hy, hyx⟩
      · have hlt : order p q = .lt := by
          have hle := hhead q (hgiven q List.mem_cons_self)
          cases horder : order p q <;> simp_all
        simp only [hlt]
        refine ⟨List.pairwise_cons.mpr ⟨?_, hincreasing⟩, by grind, by grind⟩
        intro x hx
        rcases List.mem_cons.mp hx with rfl | hx
        · exact hlt
        · exact TransCmp.lt_trans hlt (hq x hx)

theorem sortedOnce_lists (paths : List String) : Lists (sortedOnce paths) paths := by
  have hsorted : (paths.mergeSort fun a b => (order a b).isLE).Pairwise
      fun a b => (order a b).isLE := by
    apply List.pairwise_mergeSort
    · intro a b c
      exact TransCmp.isLE_trans
    · intro a b
      have hswap : order b a = (order a b).swap := OrientedCmp.eq_swap
      rw [hswap]
      cases order a b <;> rfl
  have hperm := List.mergeSort_perm paths fun a b => (order a b).isLE
  obtain ⟨hincreasing, hgiven, hexists⟩ := dropRepeats_lists hsorted
  refine ⟨hincreasing, ?_, ?_⟩
  · intro p hp
    exact hperm.mem_iff.mp (hgiven p hp)
  · intro p hp
    exact hexists p (hperm.mem_iff.mpr hp)

end Path

end Stencil.Cli
