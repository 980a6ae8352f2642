/-
Dialects: how a host language spells the two routines of a component. The streaming routine
appends to a buffer `_b` that it is given; the buffered one returns a string.
-/
import Stencil.Instruction
import Stencil.Options
import Stencil.Signature
import Stencil.Text.Lines

namespace Stencil

structure Dialect where
  language : Language
  /-- One level of indentation. -/
  indentUnit : String
  /-- The buffered and the streaming routine of a component, unless one cannot be declared. -/
  routineNames : String → Option (String × String)
  /-- What stands at the top of a bundle for a package of this name. -/
  fileHeader : String → String
  stringLiteral : String → String
  /-- The statement that writes a text. -/
  literalStatement : String → String
  /-- The statement that writes the value of an expression, escaped or not. -/
  expressionStatement : String → Bool → String
  /-- The statement that writes a component with these arguments. -/
  callStatement : String → String → String
  /-- The header of a block, without its brace. -/
  blockHeader : Header → String
  /-- The body of a buffered routine that returns the value of one instruction. -/
  returnStatement : Instruction → String
  /-- The body of a buffered routine that runs the streaming one on a buffer of the pool. -/
  pooledBody : Signature → List String
  /-- Both routines around their bodies. -/
  routines : Signature → String → String → String

namespace Dialect

/-- Arguments after a first one. -/
def callArguments (first args : String) : String :=
  let rest := String.ofList (Text.trim args.toList)
  if rest.isEmpty then first else first ++ ", " ++ rest

/-- A body one level deeper. Empty lines stay empty. -/
def indentBody (unit body : String) : String :=
  String.join ((Text.lines body.toList).map fun line =>
    if line.isEmpty then "\n" else unit ++ String.ofList line ++ "\n")

/-- A routine: the line that opens it, up to the brace, and its body one level deeper. -/
def routine (unit opening body : String) : String :=
  opening ++ r"{" ++ "\n" ++ indentBody unit body ++ r"}" ++ "\n"

/-- Both routines of a component, with an empty line between them. -/
def framed (unit first second buffered streaming : String) : String :=
  routine unit first buffered ++ "\n" ++ routine unit second streaming

/-- The parameters of a signature as they are declared. -/
def declaredParameters (s : Signature) : String :=
  ", ".intercalate (s.parameters.map (·.declaration))

/-- The arguments that hand all parameters on. -/
def forwardedParameters (s : Signature) : String := ", ".intercalate s.parameterNames

end Dialect

end Stencil
