/-
Coalescing: adjacent texts become one, and empty texts go, at every depth. Two bodies that write
the same texts around the same other instructions coalesce to the same body.
-/
import Stencil.Instruction

namespace Stencil.Instructions

mutual

/-- An instruction with the body it may have coalesced. -/
def coalesceOne : Instruction → Instruction
  | .control header body => .control header (coalesceOnto [] body)
  | i => i

/-- Appends instructions one by one: a text is pushed, and all else comes as it is, coalesced. -/
def coalesceOnto (out : Instructions) : Instructions → Instructions
  | [] => out
  | i :: is =>
    match i with
    | .literal text => coalesceOnto (out.pushLiteral text) is
    | _ => coalesceOnto (out ++ [coalesceOne i]) is

end

/-- A body without empty texts and without adjacent texts. -/
def coalesce (body : Instructions) : Instructions := coalesceOnto [] body

end Stencil.Instructions
