/-
Where a reader of host-language text stands among literals and groups. Attribute values, parameter
lists and call arguments are opaque text, cut only at delimiters that are inside no string, no
character literal, no escape and no group. The reader is fed one character at a time and tells for
each whether it is inside one of these.

A group may be closed by a bracket of another kind, and closing more groups than were opened makes
the depth negative; both are as the text has them.
-/
import Stencil.Text.Word

namespace Stencil

/-- The state of a reader between two characters. -/
structure Nesting where
  /-- Inside a double-quoted string. -/
  inString : Bool
  /-- Inside a character literal. -/
  inChar : Bool
  /-- Groups opened less groups closed. -/
  depth : Int
  /-- Right after a backslash that escapes the next character. -/
  escaped : Bool
  deriving DecidableEq, Repr

namespace Nesting

def start : Nesting := ⟨false, false, 0, false⟩

def isOpening (c : Char) : Bool := c == '(' || c == '[' || c == '{'

def isClosing (c : Char) : Bool := c == ')' || c == ']' || c == '}'

/-- The state after `c`, and whether `c` is inside a literal, an escape or a group. The brackets
of an outermost group count as inside it. -/
def step (s : Nesting) (c : Char) : Nesting × Bool :=
  if s.escaped then ({ s with escaped := false }, true)
  else if c == '\\' then ({ s with escaped := true }, true)
  else if c == '"' then ({ s with inString := !s.inString }, true)
  else if s.inString then (s, true)
  else if c == '\'' then ({ s with inChar := !s.inChar }, true)
  else if s.inChar then (s, true)
  else if isOpening c then ({ s with depth := s.depth + 1 }, true)
  else if isClosing c then ({ s with depth := s.depth - 1 }, 0 ≤ s.depth - 1)
  else (s, 0 < s.depth)

/-- The state after `c`. -/
def feed (s : Nesting) (c : Char) : Nesting := (s.step c).1

/-- Whether `c`, read next, is inside a literal, an escape or a group. -/
def covers (s : Nesting) (c : Char) : Bool := (s.step c).2

/-- The state after a text. -/
def run (s : Nesting) (cs : List Char) : Nesting := cs.foldl feed s

/-- No literal, escape or group is open. -/
def isSettled (s : Nesting) : Bool := !s.inString && !s.inChar && !s.escaped && s.depth ≤ 0

/-- A text cut at one of its characters. -/
structure Cut where
  before : List Char
  delimiter : Char
  after : List Char
  deriving DecidableEq, Repr

/-- The position of the delimiter in bytes. -/
def Cut.offset (k : Cut) : Nat := Text.byteLength k.before

/-- `findDelimiter?` from a given state. -/
def findFrom (s : Nesting) (delimiters : List Char) : List Char → Option Cut
  | [] => none
  | c :: cs =>
    if !s.covers c && delimiters.contains c then some ⟨[], c, cs⟩
    else ((s.feed c).findFrom delimiters cs).map fun k => { k with before := c :: k.before }

/-- The text cut at its first delimiter that is inside nothing. -/
def findDelimiter? (cs : List Char) (delimiters : List Char) : Option Cut :=
  start.findFrom delimiters cs

/-- The rest of a group from a given state, cut at the parenthesis that closes it. -/
def closeFrom (s : Nesting) : List Char → Option Cut
  | [] => none
  | c :: cs =>
    if c == ')' && (s.feed c).depth == 0 && s.covers c then some ⟨[], c, cs⟩
    else ((s.feed c).closeFrom cs).map fun k => { k with before := c :: k.before }

/-- A text that starts with a parenthesis, cut at the one that closes it: `before` is what stands
between the two. -/
def closeGroup? : List Char → Option Cut
  | '(' :: cs => (start.feed '(').closeFrom cs
  | _ => none

/-- The position in bytes of the parenthesis that closes the one a text starts with. -/
def closingParen? (cs : List Char) : Option Nat := (closeGroup? cs).map fun k => 1 + k.offset

/-- Puts a character in front of the first of several parts. -/
def consFirst (c : Char) : List (List Char) → List (List Char)
  | [] => [[c]]
  | p :: ps => (c :: p) :: ps

/-- `splitTopLevel?` from a given state. -/
def splitFrom (s : Nesting) (separator : Char) : List Char → Option (List (List Char))
  | [] => if s.isSettled then some [[]] else none
  | c :: cs =>
    ((s.feed c).splitFrom separator cs).map fun parts =>
      if !s.covers c && c == separator then [] :: parts else consFirst c parts

/-- The parts of a text between the separators that are inside nothing, unless the text ends
inside a literal, an escape or a group. -/
def splitTopLevel? (cs : List Char) (separator : Char) : Option (List (List Char)) :=
  start.splitFrom separator cs

/-- The text stays in the string it starts with up to its last character, and ends outside. -/
def staysInString (s : Nesting) : List Char → Bool
  | [] => s.isSettled
  | c :: cs => ((s.feed c).inString || cs.isEmpty) && (s.feed c).staysInString cs

/-- One complete double-quoted string. -/
def isStringLiteral (cs : List Char) : Bool :=
  2 ≤ cs.length && cs.head? == some '"' && cs.getLast? == some '"' && start.staysInString cs

end Nesting

end Stencil
