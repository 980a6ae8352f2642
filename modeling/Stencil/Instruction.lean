/-
Instructions: what a component writes, apart from any host language. A body is a list of
instructions; a block holds a body of its own.
-/
import Stencil.LineKind

namespace Stencil

/-- The header of a block. -/
inductive Header where
  /-- A line of the host language. -/
  | raw (text : String)
  /-- A loop over a collection. -/
  | each (binding iterable : String)
  deriving DecidableEq, Repr

/-- An `else` block continues the block before it. -/
def Header.isElse : Header → Bool
  | raw text => LineKind.keyword text == "else"
  | each _ _ => false

inductive Instruction where
  /-- Write a text. -/
  | literal (text : String)
  /-- Write the value of a host-language expression, with or without escaping it. -/
  | expression (expr : String) (escape : Bool)
  /-- Run a body under the control of a header. -/
  | control (header : Header) (body : List Instruction)
  /-- Write what another component writes. -/
  | call (name : String) (args : String)
  deriving Repr

abbrev Instructions := List Instruction

namespace Instructions

/-- Appends a text, to the last instruction when that is a text too. -/
def pushLiteral (body : Instructions) (text : String) : Instructions :=
  if text.isEmpty then body
  else
    match body.getLast? with
    | some (.literal last) => body.dropLast ++ [.literal (last ++ text)]
    | _ => body ++ [.literal text]

mutual

/-- An instruction and all inside it, outermost first. -/
def walkOne : Instruction → List Instruction
  | .control header body => .control header body :: walk body
  | i => [i]

/-- Every instruction of a body at any depth, in the order they are met. -/
def walk : Instructions → List Instruction
  | [] => []
  | i :: is => walkOne i ++ walk is

end

/-- The number of instructions at any depth. -/
def count (body : Instructions) : Nat := (walk body).length

/-- The texts written at any depth. -/
def literals (body : Instructions) : List String :=
  (walk body).filterMap fun
    | .literal text => some text
    | _ => none

/-- The only instruction of a body, when it has a value: a block has none. -/
def trivial? : Instructions → Option Instruction
  | [.control _ _] => none
  | [i] => some i
  | _ => none

end Instructions

end Stencil
