/-
Reading a configuration. A record is written as an object, or as an array of its values in the
order of their declaration; a choice by its name, or as an object that gives this name to null.
Values left out take their defaults, unknown names are skipped, and a known name may appear once.
-/
import Stencil.Config
import Stencil.Host.JsonParser

namespace Stencil

/-- The values that a record gives to these names. -/
def Json.record? (names : List String) : Json → Option (List (Option Json))
  | .object fields =>
    names.mapM fun name =>
      match fields.filter (·.1 == name) with
      | [] => some none
      | [(_, value)] => some (some value)
      | _ => none
  | .array values =>
    if values.length ≤ names.length then
      some (values.map some ++ List.replicate (names.length - values.length) none)
    else none
  | _ => none

namespace Json

def bool? : Json → Option Bool
  | .bool b => some b
  | _ => none

def string? : Json → Option String
  | .string s => some s
  | _ => none

def strings? : Json → Option (List String)
  | .array items => items.mapM string?
  | _ => none

/-- One of several named values. -/
def choice? {α : Type} (ofName? : String → Option α) : Json → Option α
  | .string name => ofName? name
  | .object [(name, .null)] => ofName? name
  | _ => none

/-- A value that may also be null. -/
def nullable? {α : Type} (read : Json → Option α) : Json → Option (Option α)
  | .null => some none
  | j => (read j).map some

/-- A value that may be left out. -/
def withDefault? {α : Type} (default : α) (read : Json → Option α) : Option Json → Option α
  | none => some default
  | some j => read j

end Json

open Json

namespace Options

def fieldNames : List String :=
  ["target", "packageName", "runtimePath", "extraVoidTags", "dedent", "collapseBlankLines",
    "inlineTrivial"]

def ofJson? (j : Json) : Option Options := do
  let defaults : Options := {}
  let [target, packageName, runtimePath, extraVoidTags, dedent, collapse, inline] ←
    j.record? fieldNames | none
  pure {
    target := ← withDefault? defaults.target (choice? Language.ofName?) target
    packageName := ← withDefault? defaults.packageName string? packageName
    runtimePath := ← withDefault? defaults.runtimePath string? runtimePath
    extraVoidTags := ← withDefault? defaults.extraVoidTags strings? extraVoidTags
    dedent := ← withDefault? defaults.dedent (choice? DedentPolicy.ofName?) dedent
    collapseBlankLines := ← withDefault? defaults.collapseBlankLines bool? collapse
    inlineTrivial := ← withDefault? defaults.inlineTrivial bool? inline }

end Options

def BuildConfig.ofJson? (j : Json) : Option BuildConfig := do
  let [output, sources] ← j.record? ["output", "include"] | none
  pure {
    output := ← withDefault? none (nullable? string?) output
    sources := ← withDefault? [] strings? sources }

namespace Config

def ofJson? (j : Json) : Option Config := do
  let [schema, compiler, build] ← j.record? ["$schema", "compiler", "build"] | none
  pure {
    schema := ← withDefault? none (nullable? string?) schema
    compiler := ← withDefault? {} Options.ofJson? compiler
    build := ← withDefault? {} BuildConfig.ofJson? build }

/-- The configuration that a file holds. -/
def parse? (content : String) : Option Config := (Json.parse? content).bind ofJson?

end Config

end Stencil
