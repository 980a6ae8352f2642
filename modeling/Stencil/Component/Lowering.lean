/-
Lowering: an outline becomes components. A fault ends the top-level line it is found in, and the
next one is lowered as if nothing had happened; warnings met before the fault stay.
-/
import Stencil.Component
import Stencil.Dialect.Go
import Stencil.Dialect.Rust
import Stencil.Element.Parser

namespace Stencil

open Text

/-- The dialect that the options ask for. -/
def Options.dialect (options : Options) : Dialect :=
  match options.target with
  | .rust => .rust options.runtimePath
  | .go => .go

/-- The outcome of lowering some lines: the warnings in the order they were met, and a result
unless a fault was found. -/
structure Lowered (α : Type) where
  warnings : List Diagnostic
  result : Except Diagnostic α

namespace Lowered

variable {α β : Type}

def ok (a : α) : Lowered α := ⟨[], .ok a⟩

def bind (x : Lowered α) (f : α → Lowered β) : Lowered β :=
  match x.result with
  | .ok a => ⟨x.warnings ++ (f a).warnings, (f a).result⟩
  | .error d => ⟨x.warnings, .error d⟩

instance : Monad Lowered where
  pure := ok
  bind := bind

def fail (line : Line) (f : Fault) : Lowered α := ⟨[], .error (f.atLine line.number)⟩

def warn (line : Line) (ws : List Warning) : Lowered Unit :=
  ⟨ws.map (·.atLine line.number), .ok ()⟩

/-- The result of reading a part of a line. -/
def read (line : Line) : Except Fault α → Lowered α
  | .ok a => ok a
  | .error f => fail line f

/-- All diagnostics. The fault comes last. -/
def diagnostics (x : Lowered α) : List Diagnostic :=
  match x.result with
  | .ok _ => x.warnings
  | .error d => x.warnings ++ [d]

end Lowered

/-- A text cut at its first ` in `. -/
def cutIn : List Char → Option (List Char × List Char)
  | [] => none
  | ' ' :: 'i' :: 'n' :: ' ' :: cs => some ([], cs)
  | c :: cs => (cutIn cs).map fun (before, after) => (c :: before, after)

/-- The header of an `each` line: a variable and a collection. -/
def Header.ofClause (clause : String) : Except Fault Header :=
  match cutIn clause.toList with
  | none => .error (.badEachClause clause)
  | some (before, after) =>
    if allBlank before || allBlank after then .error (.badEachClause clause)
    else .ok (.each (String.ofList (trim before)) (String.ofList (trim after)))

/-- The expression of an embedding line. -/
def Instruction.ofEmbedded (expr : String) : Except Fault Instruction :=
  if allBlank expr.toList then .error .noEmbedded
  else .ok (.expression (String.ofList (trim expr.toList)) false)

/-- The call of a line: a component's name, alone or with arguments in parentheses. -/
def Instruction.ofCall (text : String) : Except Fault Instruction :=
  let cs := trimEnd text.toList
  let name := String.ofList (cs.takeWhile isIdentifierChar)
  match cs.dropWhile isIdentifierChar with
  | [] => .ok (.call name "")
  | rest =>
    match Nesting.closeGroup? rest with
    | none => .error (.openCall name)
    | some group =>
      if group.after.isEmpty then .ok (.call name (String.ofList (trim group.before)))
      else .error (.afterCall (String.ofList group.after) name)

mutual

/-- The instructions of a line in a component's body and of the lines below it. -/
def lowerNode (options : Options) : Node → Lowered Instructions
  | ⟨line, children⟩ =>
    match LineKind.ofText line.text with
    | .comment => pure []
    | .component _ => .fail line .nestedComponent
    | .control _ header => do
      let body ← lowerNodes options children
      pure [.control (.raw header) body]
    | .each clause => do
      let header ← .read line (Header.ofClause clause)
      let body ← lowerNodes options children
      pure [.control header body]
    | .embed expr => do
      let i ← .read line (Instruction.ofEmbedded expr)
      pure [i]
    | .element tag rest => do
      let e ← .read line (Element.parse tag rest)
      let body ← lowerNodes options children
      pure (e.lower body (options.isVoidTag tag))
    | .call text => do
      let i ← .read line (Instruction.ofCall text)
      .warn line (if children.isEmpty then [] else [.ignoredLines children.length])
      pure [i]

/-- The instructions of sibling lines. -/
def lowerNodes (options : Options) : List Node → Lowered Instructions
  | [] => pure []
  | n :: ns => do
    let first ← lowerNode options n
    let rest ← lowerNodes options ns
    pure (first ++ rest)

end

/-- The component that a definition line and the lines below it make. -/
def lowerComponent (options : Options) (line : Line) (signature : String) (children : List Node) :
    Lowered Component := do
  let (signature, warnings) ← .read line (Signature.parse signature)
  .warn line warnings
  if (options.dialect.routineNames signature.name).isNone then
    .fail line (.reservedName signature.name options.target)
  else
    let body ← lowerNodes options children
    pure ⟨signature, line.number, body⟩

/-- A top-level line is a comment or defines a component. -/
def lowerTopLevel (options : Options) : Node → Lowered (Option Component)
  | ⟨line, children⟩ =>
    match LineKind.ofText line.text with
    | .comment => pure none
    | .component signature => some <$> lowerComponent options line signature children
    | kind => .fail line (.outsideComponent kind)

/-- The component of a top-level line that is one and has no fault. -/
def Lowered.component? (x : Lowered (Option Component)) : Option Component :=
  match x.result with
  | .ok c => c
  | .error _ => none

/-- The components of an outline, and all diagnostics in the order of their lines. -/
def lower (options : Options) (outline : Outline) : List Component × List Diagnostic :=
  let outcomes := outline.map (lowerTopLevel options)
  (outcomes.filterMap (·.component?),
    (outcomes.flatMap (·.diagnostics)).mergeSort fun a b => a.line ≤ b.line)

end Stencil
