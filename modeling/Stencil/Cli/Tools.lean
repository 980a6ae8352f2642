/-
What a command leaves to others: walking directories, taking digests of texts, and reading a
configuration. Nothing is assumed about how they do it.
-/
import Stencil.Cli.FileSystem
import Stencil.Config

namespace Stencil.Cli

structure Tools where
  /-- The paths that a walk below a directory comes by, in any order. -/
  walk : FileSystem → String → List String
  digest : String → UInt64
  /-- The configuration that a text holds, if it is one. -/
  readConfig : String → Option Config

end Stencil.Cli
