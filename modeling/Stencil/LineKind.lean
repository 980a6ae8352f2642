/-
What a line of a component is. Its first characters decide, in this order: a comment, a call of
another component, an element without a tag name, an embedded expression, then the leading
keyword. Every other line is an element named by that keyword.
-/
import Stencil.Text.Blank
import Stencil.Text.Word

namespace Stencil

/-- The keywords whose lines are handed to the host language as block headers. -/
inductive ControlKeyword where
  | branch
  | otherwise
  | loop
  deriving DecidableEq, Repr

namespace ControlKeyword

def spelling : ControlKeyword → String
  | branch => "if"
  | otherwise => "else"
  | loop => "for"

def ofWord? (word : String) : Option ControlKeyword :=
  [branch, otherwise, loop].find? fun k => k.spelling == word

end ControlKeyword

/-- What a line is, with the part of its text that matters to it. -/
inductive LineKind where
  /-- `component` and what follows the keyword. -/
  | component (signature : String)
  /-- A block header, the whole line. -/
  | control (keyword : ControlKeyword) (header : String)
  /-- `each` and what follows the keyword. -/
  | each (clause : String)
  /-- What follows `go:`. -/
  | embed (expr : String)
  /-- A tag name and what follows it. -/
  | element (tag : String) (rest : String)
  | comment
  /-- A line that starts with an uppercase letter. -/
  | call (text : String)
  deriving DecidableEq, Repr

namespace LineKind

/-- The tag of a line that starts with `#id` or `.class`. -/
def containerTag : String := "div"

/-- The leading letters, digits and hyphens of a text. -/
def keyword (text : String) : String := String.ofList (text.toList.takeWhile Text.isKeywordChar)

/-- The kind of a line whose leading keyword is `word`. -/
def ofKeyword (text word : String) (rest : List Char) : LineKind :=
  if word == "component" then .component (String.ofList (Text.trim rest))
  else if word == "each" then .each (String.ofList (Text.trim rest))
  else
    match ControlKeyword.ofWord? word with
    | some k => .control k (String.ofList (Text.trimEnd text.toList))
    | none => .element word (String.ofList rest)

/-- The kind of a line, given the text after its tabs. -/
def ofText (text : String) : LineKind :=
  match text.toList with
  | '/' :: '/' :: _ => .comment
  | '#' :: _ => .element containerTag text
  | '.' :: _ => .element containerTag text
  | 'g' :: 'o' :: ':' :: expr => .embed (String.ofList expr)
  | cs =>
    if cs.head?.any Text.isUppercase then .call text
    else ofKeyword text (keyword text) (cs.dropWhile Text.isKeywordChar)

/-- The name of a kind in messages. -/
def describe : LineKind → String
  | component _ => "component definition"
  | control _ _ => "control header"
  | each _ => "each loop"
  | embed _ => "raw embed"
  | element _ _ => "element"
  | comment => "comment"
  | call _ => "component call"

end LineKind

end Stencil
