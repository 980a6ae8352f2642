/-
Compiling a source: its outline is lowered to components, their bodies are optimized, and each
component becomes two routines of the target language.
-/
import Stencil.Code.Collapse
import Stencil.Code.Writer
import Stencil.Component.Lowering
import Stencil.Instruction.Inline

namespace Stencil

open Code

/-- A component with the routines written for it. -/
structure CompiledComponent where
  name : String
  parameters : List Parameter
  /-- The optimized body. -/
  instructions : Instructions
  /-- The buffered routine returns its value without a buffer. -/
  inlined : Bool
  bufferedBody : String
  streamingBody : String
  /-- Both routines. -/
  code : String

def CompiledComponent.parameterNames (c : CompiledComponent) : List String :=
  c.parameters.map (·.name)

namespace Dialect

/-- Opens a block. An `else` goes on the line that closes the block before it. -/
def openBlock (d : Dialect) (header : Header) (w : Writer) : Writer :=
  let line := d.blockHeader header ++ r" {"
  if header.isElse then w.continueBlock line else w.pushLine line

mutual

/-- Writes the statement of an instruction, or its block. -/
def writeInstruction (d : Dialect) : Instruction → Writer → Writer
  | .literal text, w => w.pushLine (d.literalStatement text)
  | .expression expr escape, w => w.pushLine (d.expressionStatement expr escape)
  | .call name args, w => w.pushLine (d.callStatement name args)
  | .control header body, w =>
    ((writeBody d body (d.openBlock header w).indent).deindent).pushLine r"}"

/-- Writes the statements of a body. -/
def writeBody (d : Dialect) : Instructions → Writer → Writer
  | [], w => w
  | i :: is, w => writeBody d is (writeInstruction d i w)

end

/-- The code that a writer of this dialect makes. -/
def written (d : Dialect) (write : Writer → Writer) : String :=
  (write { unit := d.indentUnit }).code

/-- The body of the streaming routine. -/
def streamingBody (d : Dialect) (body : Instructions) : String := d.written (d.writeBody body)

/-- The body of the buffered routine: one value returned at once, or the pool. -/
def bufferedBody (d : Dialect) (inlined? : Option Instruction) (s : Signature) : String :=
  d.written fun w =>
    match inlined? with
    | some i => w.pushLine (d.returnStatement i)
    | none => w.pushLines (d.pooledBody s)

end Dialect

/-- The routines of an optimized component. -/
def Component.emit (options : Options) (c : Component) : CompiledComponent :=
  let d := options.dialect
  let inlined? := if options.inlineTrivial then Instructions.trivial? c.body else none
  let tidy := fun code => if options.collapseBlankLines then collapseBlankRuns code else code
  let buffered := tidy (d.bufferedBody inlined? c.signature)
  let streaming := tidy (d.streamingBody c.body)
  { name := c.signature.name
    parameters := c.signature.parameters
    instructions := c.body
    inlined := inlined?.isSome
    bufferedBody := buffered
    streamingBody := streaming
    code := d.routines c.signature buffered streaming }

/-- What a source compiles to. -/
structure Compilation where
  components : List CompiledComponent
  diagnostics : List Diagnostic

def Compilation.hasErrors (c : Compilation) : Bool := c.diagnostics.any (·.isError)

/-- Compiles a source. A source whose outline fails has no components. -/
def compile (options : Options) (source : String) : Compilation :=
  match Outline.parse options.dedent source with
  | .error e => ⟨[], [⟨.indentation, e.line, e.message⟩]⟩
  | .ok outline =>
    let (components, diagnostics) := lower options outline
    ⟨(optimize options components).map (·.emit options), diagnostics⟩

/-- The components of one or more sources in a single file. -/
def bundle (options : Options) (components : List CompiledComponent) : String :=
  options.dialect.fileHeader options.packageName
    ++ String.join (components.map fun c => "\n" ++ c.code)

end Stencil
