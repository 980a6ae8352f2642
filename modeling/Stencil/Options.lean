/-
The options of a compilation. Each one has a default; nothing else influences what a source
compiles to.
-/
import Stencil.Html.Tag
import Stencil.Outline

namespace Stencil

/-- A language that rendering routines are written in. -/
inductive Language where
  | rust
  | go
  deriving DecidableEq, Repr

/-- The name of a language in messages. -/
def Language.title : Language → String
  | rust => "Rust"
  | go => "Go"

structure Options where
  target : Language := .rust
  /-- The package or module that a bundle declares. -/
  packageName : String := "components"
  /-- Where generated Rust routines find their support functions. -/
  runtimePath : String := "::sprig_sap"
  /-- Elements that are never closed, besides those of HTML. -/
  extraVoidTags : List String := []
  dedent : DedentPolicy := .singleLevel
  /-- Drop the empty lines of routine bodies. -/
  collapseBlankLines : Bool := true
  /-- Return single values directly, and replace calls of constant components by their text. -/
  inlineTrivial : Bool := true
  deriving DecidableEq, Repr

def Options.isVoidTag (options : Options) (tag : String) : Bool :=
  Html.isVoidTag tag || options.extraVoidTags.contains tag

end Stencil
