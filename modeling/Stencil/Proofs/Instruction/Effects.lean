/-
The effects of a body: the expressions that are evaluated and the headers of the blocks that are
opened, in the order they are met at any depth. Texts and calls are no effects, so that coalescing
and replacing leave the effects of a body alone, and so does the optimizer (`effects_optimize`).
Of the calls it may drop some, and it adds none (`forall_calls_optimize`).
-/
import Stencil.Proofs.Inlining.Rounds
import Stencil.Proofs.Instruction.Calls

namespace Stencil

/-- What a body does besides writing texts and calling components. -/
inductive Effect where
  | expression (expr : String) (escape : Bool)
  | block (header : Header)
  deriving DecidableEq, Repr

def Instruction.effect? : Instruction → Option Effect
  | .expression expr escape => some (.expression expr escape)
  | .control header _ => some (.block header)
  | _ => none

namespace Instructions

/-- The effects of a body at any depth, in the order they are met. -/
def effects (body : Instructions) : List Effect := (walk body).filterMap Instruction.effect?

@[simp] theorem effects_nil : effects [] = [] := rfl

@[simp] theorem effects_literal (text : String) (is : Instructions) :
    effects (.literal text :: is) = effects is := rfl

@[simp] theorem effects_expression (expr : String) (escape : Bool) (is : Instructions) :
    effects (.expression expr escape :: is) = .expression expr escape :: effects is := rfl

@[simp] theorem effects_call (name args : String) (is : Instructions) :
    effects (.call name args :: is) = effects is := rfl

@[simp] theorem effects_control (header : Header) (body is : Instructions) :
    effects (.control header body :: is) = .block header :: (effects body ++ effects is) := by
  simp [effects, walk, walkOne, Instruction.effect?]

theorem mem_effects_expression {body : Instructions} {expr : String} {escape : Bool} :
    .expression expr escape ∈ body.effects ↔ .expression expr escape ∈ body.walk := by
  simp only [effects, List.mem_filterMap]
  constructor
  · intro ⟨i, hi, h⟩
    cases i <;> simp_all [Instruction.effect?]
  · exact fun h => ⟨_, h, rfl⟩

theorem mem_effects_block {body : Instructions} {header : Header} :
    .block header ∈ body.effects ↔ ∃ inner, .control header inner ∈ body.walk := by
  simp only [effects, List.mem_filterMap]
  constructor
  · intro ⟨i, hi, h⟩
    cases i <;> simp_all [Instruction.effect?]
    exact ⟨_, hi⟩
  · exact fun ⟨inner, h⟩ => ⟨_, h, rfl⟩

theorem effects_coalesce (body : Instructions) : body.coalesce.effects = body.effects :=
  filterMap_walk_coalesce ⟨fun _ => rfl, fun _ _ _ => rfl⟩ body

end Instructions

namespace Inlining

open Instructions

/-- A call is replaced by a text, and neither has an effect. -/
theorem effects_replace (table : Table) : ∀ body : Instructions,
    (replace table body).effects = body.effects
  | [] => rfl
  | .call name args :: is => by
    simp only [replace, replaceOne]
    split <;> simp [effects_replace table is]
  | .control header body :: is => by
    simp [replace, replaceOne, effects_replace table body, effects_replace table is]
  | .literal _ :: is | .expression _ _ :: is => by
    simp [replace, replaceOne, effects_replace table is]

theorem effects_inlineOnce (table : Table) (c : Component) :
    (inlineOnce table c).body.effects = c.body.effects := by
  rcases inlineOnce_body table c with ⟨-, hbody⟩ | hbody
  · rw [hbody]
  · rw [hbody, effects_coalesce, effects_replace]

theorem calls_inlineOnce_subset (table : Table) (c : Component) :
    (inlineOnce table c).body.calls ⊆ c.body.calls := by
  rcases inlineOnce_body table c with ⟨-, hbody⟩ | hbody
  · rw [hbody]
    exact List.Subset.refl _
  · rw [hbody, calls_coalesce, calls_replace]
    exact List.filter_sublist.subset

end Inlining

variable {options : Options}

/-- What coalescing and every round keep of a component, the optimizer keeps of each. -/
theorem map_optimize {α : Type} (view : Component → α)
    (hcoalesce : ∀ c : Component, view { c with body := c.body.coalesce } = view c)
    (hinline : ∀ table c, view (Inlining.inlineOnce table c) = view c)
    (components : List Component) :
    (optimize options components).map view = components.map view := by
  refine Inlining.optimize_invariant (P := fun cs => cs.map view = components.map view) ?_ ?_
  · rw [List.map_map]
    exact List.map_congr_left fun c _ => hcoalesce c
  · intro cs hcs
    rw [Inlining.round, List.map_map, ← hcs]
    exact List.map_congr_left fun c _ => hinline _ c

/-- **The optimizer leaves the effects of every component as they are.** -/
theorem effects_optimize (components : List Component) :
    (optimize options components).map (·.body.effects) = components.map (·.body.effects) :=
  map_optimize _ (fun c => Instructions.effects_coalesce c.body) Inlining.effects_inlineOnce
    components

theorem signature_optimize (components : List Component) :
    (optimize options components).map (·.signature) = components.map (·.signature) :=
  map_optimize _ (fun _ => rfl) Inlining.inlineOnce_signature components

theorem signature_of_mem_optimize {components : List Component} {c : Component}
    (h : c ∈ optimize options components) : ∃ d ∈ components, d.signature = c.signature := by
  have hmem := List.mem_map_of_mem (f := Component.signature) h
  rw [signature_optimize] at hmem
  exact List.mem_map.mp hmem

/-- **The optimizer adds no call.** -/
theorem forall_calls_optimize {P : String × String → Prop} {components : List Component}
    (h : ∀ c ∈ components, ∀ call ∈ c.body.calls, P call) :
    ∀ c ∈ optimize options components, ∀ call ∈ c.body.calls, P call := by
  refine Inlining.forall_optimize (P := fun c => ∀ call ∈ c.body.calls, P call) ?_ ?_
  · intro c hc
    rw [Instructions.calls_coalesce]
    exact h c hc
  · intro table c hc call hcall
    exact hc call (Inlining.calls_inlineOnce_subset table c hcall)

end Stencil
