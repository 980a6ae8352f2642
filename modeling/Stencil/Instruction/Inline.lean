/-
Inlining: a call of a component that writes one constant text is replaced by that text. This can
make the caller constant in turn, so replacement goes on in rounds until none is left to do.
-/
import Stencil.Component
import Stencil.Instruction.Coalesce
import Stencil.Text.Blank

namespace Stencil

/-- The text of a component that takes nothing and writes one text or nothing. -/
def Component.constantText? (c : Component) : Option String :=
  if c.signature.isParameterless then
    match c.body with
    | [] => some ""
    | [.literal text] => some text
    | _ => none
  else none

namespace Inlining

/-- Constant components by name. -/
abbrev Table := List (String × String)

def tableOf (components : List Component) : Table :=
  components.filterMap fun c => c.constantText?.map fun text => (c.signature.name, text)

/-- The text under a name; the last of several. -/
def Table.text? (table : Table) (name : String) : Option String := table.reverse.lookup name

/-- The text that a call with these arguments is replaced by. -/
def Table.callText? (table : Table) (name args : String) : Option String :=
  if Text.allBlank args.toList then table.text? name else none

mutual

def replaceOne (table : Table) : Instruction → Instruction
  | .call name args =>
    match table.callText? name args with
    | some text => .literal text
    | none => .call name args
  | .control header body => .control header (replace table body)
  | i => i

/-- A body with the calls of constant components replaced, at any depth. -/
def replace (table : Table) : Instructions → Instructions
  | [] => []
  | i :: is => replaceOne table i :: replace table is

end

mutual

def sitesOne (table : Table) : Instruction → Nat
  | .call name args => if (table.callText? name args).isSome then 1 else 0
  | .control _ body => sites table body
  | _ => 0

/-- The number of calls of constant components, at any depth. -/
def sites (table : Table) : Instructions → Nat
  | [] => 0
  | i :: is => sitesOne table i + sites table is

end

/-- A component after one round. A body in which nothing is replaced stays as it is. -/
def inlineOnce (table : Table) (c : Component) : Component :=
  if sites table c.body = 0 then c
  else { c with body := Instructions.coalesce (replace table c.body) }

/-- The call sites that one round replaces. -/
def totalSites (table : Table) (components : List Component) : Nat :=
  components.foldr (fun c n => sites table c.body + n) 0

/-- At most `n` rounds, up to one that replaces nothing. Also gives how many calls were
replaced. -/
def rounds : Nat → List Component → List Component × Nat
  | 0, components => (components, 0)
  | n + 1, components =>
    let table := tableOf components
    let replaced := totalSites table components
    if replaced = 0 then (components, 0)
    else
      let (result, more) := rounds n (components.map (inlineOnce table))
      (result, replaced + more)

/-- Every round but the last makes another component constant, so one more round than there are
components is enough. -/
def inlineCalls (components : List Component) : List Component × Nat :=
  rounds (components.length + 1) components

end Inlining

/-- The components of a source with their bodies coalesced and, if the options ask for it, calls
of constant components inlined. -/
def optimize (options : Options) (components : List Component) : List Component :=
  let coalesced := components.map fun c => { c with body := c.body.coalesce }
  if options.inlineTrivial then (Inlining.inlineCalls coalesced).1 else coalesced

end Stencil
