/-
What a run of inlining keeps. A run is rounds, each of which maps `inlineOnce` over the components
with the table of the constant ones, so what every round keeps, every run keeps
(`rounds_invariant`), and so does the optimizer if it holds after coalescing
(`optimize_invariant`).
-/
import Stencil.Instruction.Inline

namespace Stencil.Inlining

/-- One round of inlining. -/
def round (components : List Component) : List Component :=
  components.map (inlineOnce (tableOf components))

theorem rounds_succ (n : Nat) (components : List Component) :
    rounds (n + 1) components =
      if totalSites (tableOf components) components = 0 then (components, 0)
      else ((rounds n (round components)).1,
        totalSites (tableOf components) components + (rounds n (round components)).2) := rfl

/-- **What one round keeps, a run keeps.** -/
theorem rounds_invariant {P : List Component → Prop} (step : ∀ cs, P cs → P (round cs)) (n : Nat)
    {components : List Component} (h : P components) : P (rounds n components).1 := by
  induction n generalizing components with
  | zero => exact h
  | succ n ih =>
    rw [rounds_succ]
    split
    · exact h
    · exact ih (step _ h)

theorem optimize_invariant {P : List Component → Prop} {options : Options}
    {components : List Component}
    (hcoalesced : P (components.map fun c => { c with body := c.body.coalesce }))
    (step : ∀ cs, P cs → P (round cs)) : P (optimize options components) := by
  unfold optimize
  dsimp only
  split
  · exact rounds_invariant step _ hcoalesced
  · exact hcoalesced

/-- What coalescing and every round ensure of a component holds of each that the optimizer
makes. -/
theorem forall_optimize {P : Component → Prop} {options : Options} {components : List Component}
    (hcoalesce : ∀ c ∈ components, P { c with body := c.body.coalesce })
    (hinline : ∀ table c, P c → P (inlineOnce table c)) :
    ∀ c ∈ optimize options components, P c := by
  refine optimize_invariant (P := fun cs => ∀ c ∈ cs, P c) ?_ ?_
  · exact List.forall_mem_map.mpr hcoalesce
  · exact fun cs hcs => List.forall_mem_map.mpr fun c hc => hinline _ c (hcs c hc)

theorem inlineOnce_signature (table : Table) (c : Component) :
    (inlineOnce table c).signature = c.signature := by
  unfold inlineOnce
  split <;> rfl

theorem inlineOnce_line (table : Table) (c : Component) : (inlineOnce table c).line = c.line := by
  unfold inlineOnce
  split <;> rfl

/-- A round either leaves a body or replaces its calls and coalesces it. -/
theorem inlineOnce_body (table : Table) (c : Component) :
    (sites table c.body = 0 ∧ (inlineOnce table c).body = c.body) ∨
      (inlineOnce table c).body = Instructions.coalesce (replace table c.body) := by
  unfold inlineOnce
  split
  · next h => exact .inl ⟨h, rfl⟩
  · exact .inr rfl

theorem text?_eq_some_mem {table : Table} {name text : String} (h : table.text? name = some text) :
    (name, text) ∈ table := by
  obtain ⟨before, after, hsplit, -⟩ := List.lookup_eq_some_iff.mp h
  rw [← List.mem_reverse, hsplit]
  simp

/-- What a table says comes from a component without parameters that writes just that text. -/
theorem mem_tableOf {components : List Component} {name text : String}
    (h : (name, text) ∈ tableOf components) :
    ∃ c ∈ components, c.signature.name = name ∧ c.constantText? = some text := by
  simp only [tableOf, List.mem_filterMap, Option.map_eq_some_iff] at h
  obtain ⟨c, hc, text', htext, heq⟩ := h
  simp only [Prod.mk.injEq] at heq
  obtain ⟨rfl, rfl⟩ := heq
  exact ⟨c, hc, rfl, htext⟩

/-- A constant component has no parameters, and its body is one text or nothing. -/
theorem constantText?_eq_some {c : Component} {text : String} (h : c.constantText? = some text) :
    c.signature.isParameterless = true ∧ (c.body = [] ∧ text = "" ∨ c.body = [.literal text]) := by
  unfold Component.constantText? at h
  split at h
  · next hp =>
    refine ⟨hp, ?_⟩
    split at h
    · next hb => exact .inl ⟨hb, by simpa using h.symm⟩
    · next t hb => exact .inr (by simpa [hb] using h)
    · cases h
  · cases h

theorem constantText?_isSome {c : Component} (hp : c.signature.isParameterless = true)
    (hb : c.body = [] ∨ ∃ text, c.body = [.literal text]) : c.constantText?.isSome := by
  unfold Component.constantText?
  rw [if_pos hp]
  rcases hb with hb | ⟨text, hb⟩ <;> simp [hb]

end Stencil.Inlining
