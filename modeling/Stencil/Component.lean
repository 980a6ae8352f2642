/-
Components: a signature with the instructions of its body.
-/
import Stencil.Instruction
import Stencil.Signature

namespace Stencil

structure Component where
  signature : Signature
  /-- The line of the definition. -/
  line : Nat
  body : Instructions

end Stencil
