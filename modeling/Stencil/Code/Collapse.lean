/-
Collapsing blank lines: every run of line feeds becomes a single one.
-/
namespace Stencil.Code

/-- A text with every run of line feeds cut to one. -/
def collapse : List Char → List Char
  | [] => []
  | c :: cs => if c == '\n' && cs.head? == some '\n' then collapse cs else c :: collapse cs

/-- Two line feeds stand side by side. -/
def hasBlankRun : List Char → Bool
  | [] => false
  | c :: cs => (c == '\n' && cs.head? == some '\n') || hasBlankRun cs

def collapseBlankRuns (code : String) : String := String.ofList (collapse code.toList)

/-- The text with its blank runs collapsed, if it has any. A text without them is used as it is. -/
def collapseBlankRuns? (code : String) : Option String :=
  if hasBlankRun code.toList then some (collapseBlankRuns code) else none

end Stencil.Code
