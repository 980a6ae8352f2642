/-
The tools that the program runs with.
-/
import Stencil.Cli.Tools
import Stencil.Host.ConfigFile
import Stencil.Host.Ignore
import Stencil.Host.Xxh3

namespace Stencil.Cli

/-- Walks that respect ignore files, XXH3 digests, and configurations in JSON. -/
def Tools.standard : Tools := ⟨walkDirectory, Xxh3.ofText, Config.parse?⟩

end Stencil.Cli
