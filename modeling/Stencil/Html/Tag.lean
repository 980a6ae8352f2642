/-
What the compiler knows about HTML: the elements without a closing tag, and the doctype that a
document starts with.
-/
namespace Stencil.Html

/-- Elements that are never closed. -/
def voidTags : List String :=
  ["area", "base", "br", "col", "command", "embed", "hr", "img", "input", "keygen", "link", "meta",
    "param", "source", "track", "wbr"]

def isVoidTag (tag : String) : Bool := voidTags.contains tag

/-- The element that a doctype is written in front of. -/
def documentTag : String := "html"

def doctype : String := "<!DOCTYPE html>"

end Stencil.Html
