/-
The configuration file: options for every compilation, where a build writes its output, and what
it compiles when the command line names nothing.
-/
import Stencil.Json
import Stencil.Options

namespace Stencil

namespace Language

/-- The name of a language in options. -/
def name : Language → String
  | rust => "rust"
  | go => "go"

def ofName? (s : String) : Option Language := [rust, go].find? fun l => l.name == s

end Language

namespace DedentPolicy

def name : DedentPolicy → String
  | singleLevel => "singleLevel"
  | anyLevel => "anyLevel"

def ofName? (s : String) : Option DedentPolicy :=
  [singleLevel, anyLevel].find? fun p => p.name == s

end DedentPolicy

namespace Options

def toJson (options : Options) : Json :=
  .object [
    ("target", .string options.target.name),
    ("packageName", .string options.packageName),
    ("runtimePath", .string options.runtimePath),
    ("extraVoidTags", .strings options.extraVoidTags),
    ("dedent", .string options.dedent.name),
    ("collapseBlankLines", .bool options.collapseBlankLines),
    ("inlineTrivial", .bool options.inlineTrivial)]

end Options

/-- What a configuration says about builds. -/
structure BuildConfig where
  output : Option String := none
  /-- What to compile when the command line names nothing. -/
  sources : List String := []
  deriving DecidableEq, Repr

structure Config where
  /-- A schema for editors, without effect. -/
  schema : Option String := none
  compiler : Options := {}
  build : BuildConfig := {}
  deriving DecidableEq, Repr

def BuildConfig.toJson (b : BuildConfig) : Json :=
  .object ((b.output.map fun path => ("output", .string path)).toList
    ++ (if b.sources.isEmpty then [] else [("include", .strings b.sources)]))

namespace Config

/-- The name of the file in the working directory that is read when no other is given. -/
def fileName : String := "sprig.config.json"

def toJson (c : Config) : Json :=
  .object ((c.schema.map fun s => ("$schema", .string s)).toList
    ++ [("compiler", c.compiler.toJson), ("build", c.build.toJson)])

end Config

end Stencil
