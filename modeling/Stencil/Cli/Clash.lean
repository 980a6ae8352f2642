/-
Clashes: routines of the same name in one bundle. Every name that more than one component emits is
a clash of the components that emit it; components that clash on several names are reported once,
under the smallest.
-/
import Stencil.Compile

namespace Stencil.Cli

/-- A file with what it compiles to. -/
structure FileResult where
  path : String
  output : Compilation

/-- A component and the file it is in. -/
abbrev Owner := String × String

structure Clash where
  routine : String
  owners : List Owner
  deriving DecidableEq, Repr

namespace Clash

/-- The routines of a component. -/
def routinesOf (d : Dialect) (name : String) : List String :=
  match d.routineNames name with
  | some (buffered, streaming) => [buffered, streaming].filter (!·.isEmpty)
  | none => [name].filter (!·.isEmpty)

/-- Every routine with its owner, in the order of files and components. -/
def emissions (d : Dialect) (files : List FileResult) : List (String × Owner) :=
  files.flatMap fun f =>
    f.output.components.flatMap fun c =>
      (routinesOf d c.name).map fun routine => (routine, (c.name, f.path))

/-- The owners of a routine. -/
def ownersOf (emitted : List (String × Owner)) (routine : String) : List Owner :=
  (emitted.filter (·.1 == routine)).map (·.2)

/-- Only the first of several clashes between the same owners. -/
def onePerOwners : List Clash → List Clash
  | [] => []
  | c :: cs => c :: (onePerOwners cs).filter fun other => other.owners != c.owners

/-- The clashes between files, sorted by routine. -/
def find (d : Dialect) (files : List FileResult) : List Clash :=
  let emitted := emissions d files
  let routines := (emitted.map (·.1)).eraseDups.mergeSort fun a b => a ≤ b
  let clashes := (routines.map fun r => Clash.mk r (ownersOf emitted r)).filter
    fun c => 1 < c.owners.length
  onePerOwners clashes

/-- The text of a clash in reports. -/
def display (c : Clash) : String :=
  let places := c.owners.map fun (name, path) => s!"`{name}` in {path}"
  s!"error: routine `{c.routine}` is generated by more than one component ("
    ++ ", ".intercalate places ++ ")"

end Clash

end Stencil.Cli
