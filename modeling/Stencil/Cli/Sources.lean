/-
Finding templates. A file that is named is taken whatever its extension; below a directory that is
named, files with the extension of templates are.
-/
import Stencil.Cli.Tools

namespace Stencil.Cli

/-- The files that one argument stands for; none when it leads nowhere. -/
def templatesOf? (tools : Tools) (fs : FileSystem) (pattern : String) : Option (List String) :=
  match fs.lookup? pattern with
  | none => none
  | some (.file _) => some [pattern]
  | some (.dir _) =>
    some ((tools.walk fs pattern).filter fun path => fs.isFile path && Path.isTemplate path)

/-- The files that arguments stand for, sorted, and the arguments that lead nowhere. -/
def collectFiles (tools : Tools) (fs : FileSystem) (patterns : List String) :
    List String × List String :=
  (Path.sortedOnce (patterns.flatMap fun p => (templatesOf? tools fs p).getD []),
    patterns.filter fun p => (templatesOf? tools fs p).isNone)

/-- What is named on the command line, else in the configuration, else the working directory. -/
def resolvePatterns (given configured : List String) : List String :=
  if !given.isEmpty then given
  else if !configured.isEmpty then configured
  else ["."]

end Stencil.Cli
