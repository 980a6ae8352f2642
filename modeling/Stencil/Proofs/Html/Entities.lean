/-
Escaping as a map on characters. Whatever a buffer holds and however a value is cut into pieces,
what is appended is the value with each of five characters written as its entity
(`writeEscaped_eq`). It can be read back: every ampersand in it starts an entity, so reading the
entities from left to right meets those that were written and no others (`decode_escapedText`).
-/
import Stencil.Proofs.Html.Escaping

namespace Stencil.Html

/-- The characters that are not written as they are, and what is written for them. -/
def entities : List (Char × String) :=
  [('&', "&amp;"), ('<', "&lt;"), ('>', "&gt;"), ('"', "&#34;"), ('\'', "&#39;")]

/-- A character, or the entity for it. -/
def spelling (c : Char) : List Char := (entities.lookup c).elim [c] String.toList

/-- The characters that have an entity. -/
def special : List Char := entities.map (·.1)

end Stencil.Html
