/-
Writing code: a text under construction, with an indentation that new lines get.
-/
import Stencil.Text.Blank

namespace Stencil.Code

structure Writer where
  /-- One level of indentation. -/
  unit : String
  /-- The levels that the next line is indented by. -/
  depth : Nat := 0
  code : String := ""
  deriving DecidableEq, Repr

namespace Writer

/-- Appends a text as it is. -/
def push (w : Writer) (s : String) : Writer := { w with code := w.code ++ s }

/-- Appends the indentation of a new line. -/
def pushIndent (w : Writer) : Writer := w.push (String.join (List.replicate w.depth w.unit))

/-- Appends a line. -/
def pushLine (w : Writer) (s : String) : Writer := (w.pushIndent.push s).push "\n"

def pushLines (w : Writer) (lines : List String) : Writer := lines.foldl pushLine w

/-- The last line of a text that ends with a line break. -/
def lastLine? (code : List Char) : Option (List Char) :=
  match code.reverse with
  | '\n' :: rest => some (rest.takeWhile (· != '\n')).reverse
  | _ => none

/-- The last line is a closing brace and nothing else. -/
def closesBlock (code : List Char) : Bool :=
  (lastLine? code).any fun line => Text.trimStart line == ['}']

/-- Appends a block header, on the line of a closing brace that comes right before it. -/
def continueBlock (w : Writer) (s : String) : Writer :=
  if closesBlock w.code.toList then
    { w with code := String.ofList w.code.toList.dropLast ++ " " ++ s ++ "\n" }
  else w.pushLine s

def indent (w : Writer) : Writer := { w with depth := w.depth + 1 }

def deindent (w : Writer) : Writer := { w with depth := w.depth - 1 }

end Writer

end Stencil.Code
