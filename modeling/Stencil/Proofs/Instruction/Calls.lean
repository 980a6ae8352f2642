/-
The calls of a body at any depth. Coalescing keeps them, as it keeps all that can be seen of a body
without looking at texts (`filterMap_walk_coalesce`); replacing drops just those that a table has a
text for, and the call sites of a table are those it has a text for.
-/
import Stencil.Instruction.Inline
import Stencil.Proofs.Instruction.Coalescing

namespace Stencil

namespace Instructions

section

variable {α : Type} {view : Instruction → Option α}

/-- A view of single instructions that sees neither texts nor what stands in a block. -/
structure Blind (view : Instruction → Option α) : Prop where
  literal : ∀ text, view (.literal text) = none
  control : ∀ header body body', view (.control header body) = view (.control header body')

theorem filterMap_walk_consLiteral (h : Blind view) (text : String) (body : Instructions) :
    (walk (consLiteral text body)).filterMap view = (walk body).filterMap view := by
  unfold consLiteral
  split
  · rfl
  · split <;> simp [walk, walkOne, h.literal]

theorem filterMap_walk_coalesce (h : Blind view) (body : Instructions) :
    (walk body.coalesce).filterMap view = (walk body).filterMap view := by
  cases body with
  | nil => rfl
  | cons i is =>
    have his := filterMap_walk_coalesce h is
    cases i with
    | literal text =>
      simp [filterMap_walk_consLiteral h, his, walk, walkOne, h.literal]
    | control header body =>
      simp [walk, walkOne, List.filterMap_cons, his,
        h.control header (coalesce body) body, filterMap_walk_coalesce h body]
    | expression | call => simp [walk, walkOne, List.filterMap_cons, his]

end

/-- The calls of a body at any depth, in the order they are met. -/
def calls (body : Instructions) : List (String × String) :=
  (walk body).filterMap fun
    | .call name args => some (name, args)
    | _ => none

@[simp] theorem calls_nil : calls [] = [] := rfl

@[simp] theorem calls_literal (text : String) (is : Instructions) :
    calls (.literal text :: is) = calls is := rfl

@[simp] theorem calls_expression (expr : String) (escape : Bool) (is : Instructions) :
    calls (.expression expr escape :: is) = calls is := rfl

@[simp] theorem calls_call (name args : String) (is : Instructions) :
    calls (.call name args :: is) = (name, args) :: calls is := rfl

@[simp] theorem calls_control (header : Header) (body is : Instructions) :
    calls (.control header body :: is) = calls body ++ calls is := by
  simp [calls, walk, walkOne]

theorem mem_calls {body : Instructions} {name args : String} :
    (name, args) ∈ body.calls ↔ .call name args ∈ body.walk := by
  simp only [calls, List.mem_filterMap]
  constructor
  · rintro ⟨i, hi, h⟩
    cases i <;> simp_all
  · exact fun h => ⟨_, h, rfl⟩

theorem calls_coalesce (body : Instructions) : body.coalesce.calls = body.calls :=
  filterMap_walk_coalesce ⟨fun _ => rfl, fun _ _ _ => rfl⟩ body

end Instructions

namespace Inlining

open Instructions

theorem calls_replace (table : Table) : ∀ body : Instructions,
    (replace table body).calls =
      body.calls.filter fun call => (table.callText? call.1 call.2).isNone
  | [] => rfl
  | .call name args :: is => by
    simp only [replace, replaceOne]
    split
    · next h => simp [h, calls_replace table is]
    · next h => simp [h, calls_replace table is]
  | .control header body :: is => by
    simp [replace, replaceOne, calls_replace table body, calls_replace table is]
  | .literal _ :: is | .expression _ _ :: is => by
    simp [replace, replaceOne, calls_replace table is]

theorem sites_eq_countP (table : Table) : ∀ body : Instructions,
    sites table body = body.calls.countP fun call => (table.callText? call.1 call.2).isSome
  | [] => rfl
  | .call name args :: is => by
    simp [sites, sitesOne, sites_eq_countP table is, List.countP_cons, Nat.add_comm]
  | .control header body :: is => by
    simp [sites, sitesOne, sites_eq_countP table body, sites_eq_countP table is]
  | .literal _ :: is | .expression _ _ :: is => by
    simp [sites, sitesOne, sites_eq_countP table is]

theorem sites_eq_zero_iff {table : Table} {body : Instructions} :
    sites table body = 0 ↔
      ∀ name args, (name, args) ∈ body.calls → table.callText? name args = none := by
  simp [sites_eq_countP, List.countP_eq_zero]

end Inlining

end Stencil
