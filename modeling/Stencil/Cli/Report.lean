/-
Reports of compiled files as JSON.
-/
import Stencil.Cli.Clash
import Stencil.Json

namespace Stencil

def Header.toJson : Header → Json
  | raw text => .object [("kind", .string "raw"), ("text", .string text)]
  | each binding iterable =>
    .object [("kind", .string "each"), ("binding", .string binding), ("iterable", .string iterable)]

mutual

def Instruction.toJson : Instruction → Json
  | .literal text => .object [("literal", .string text)]
  | .expression expr escape =>
    .object [("expression", .object [("expr", .string expr), ("escape", .bool escape)])]
  | .control header body =>
    .object [("control",
      .object [("header", header.toJson), ("body", .array (Instructions.toJsonItems body))])]
  | .call name args =>
    .object [("call", .object [("name", .string name), ("args", .string args)])]

def Instructions.toJsonItems : List Instruction → List Json
  | [] => []
  | i :: is => i.toJson :: Instructions.toJsonItems is

end

def Instructions.toJson (body : Instructions) : Json := .array (toJsonItems body)

def Parameter.toJson (p : Parameter) : Json :=
  .object [("name", .string p.name), ("declaration", .string p.declaration)]

def Diagnostic.toJson (d : Diagnostic) : Json :=
  .object [("kind", .string d.kind.name), ("severity", .string d.severity.label),
    ("line", .ofNat d.line), ("message", .string d.message)]

def CompiledComponent.toJson (c : CompiledComponent) : Json :=
  .object [
    ("name", .string c.name),
    ("parameters", .array (c.parameters.map (·.toJson))),
    ("instructions", c.instructions.toJson),
    ("inlined", .bool c.inlined),
    ("bufferedBody", .string c.bufferedBody),
    ("streamingBody", .string c.streamingBody),
    ("code", .string c.code)]

namespace Cli

def FileResult.diagnosticsJson (f : FileResult) : Json :=
  .array (f.output.diagnostics.map (·.toJson))

def FileResult.toJson (f : FileResult) : Json :=
  .object [("file", .string f.path), ("components", .array (f.output.components.map (·.toJson))),
    ("diagnostics", f.diagnosticsJson)]

/-- The report of a build. -/
def buildReport (files : List FileResult) (errors warnings : Nat) : Json :=
  .object [("files", .array (files.map (·.toJson))), ("errorCount", .ofNat errors),
    ("warningCount", .ofNat warnings)]

/-- The report of a check. Files without diagnostics are left out. -/
def checkReport (files : List FileResult) (errors warnings fileCount : Nat) : Json :=
  let notable := files.filter fun f => !f.output.diagnostics.isEmpty
  .object [
    ("files", .array (notable.map fun f =>
      .object [("file", .string f.path), ("diagnostics", f.diagnosticsJson)])),
    ("errorCount", .ofNat errors), ("warningCount", .ofNat warnings),
    ("fileCount", .ofNat fileCount)]

end Cli

end Stencil
