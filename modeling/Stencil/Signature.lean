/-
Component signatures. A parameter is declared in the host language and kept as it is written; only
its name is read off, so that one routine can hand its arguments on to the other.
-/
import Stencil.Fault
import Stencil.Nesting

namespace Stencil

open Text

structure Parameter where
  /-- The name under which the argument is handed on. -/
  name : String
  /-- The declaration as it is written. -/
  declaration : String
  deriving DecidableEq, Repr

structure Signature where
  name : String
  parameters : List Parameter
  deriving DecidableEq, Repr

namespace Parameter

/-- What the leading identifier of a declaration is looked for in: the declaration, less a `mut `
in front. -/
def binding : List Char → List Char
  | 'm' :: 'u' :: 't' :: ' ' :: cs => trimStart cs
  | cs => cs

/-- A declaration, named by its leading identifier. -/
def parse (declaration : List Char) : Except Fault Parameter :=
  let name := (binding declaration).takeWhile isIdentifierChar
  if isIdentifier name then .ok ⟨String.ofList name, String.ofList declaration⟩
  else .error (.unnamedParameter (String.ofList declaration))

end Parameter

namespace Signature

def parameterNames (s : Signature) : List String := s.parameters.map (·.name)

def isParameterless (s : Signature) : Bool := s.parameters.isEmpty

/-- Parameters between top-level commas. Nothing may stand between two commas. -/
def parseParameters (name : String) (inner : List Char) : Except Fault (List Parameter) :=
  match Nesting.splitTopLevel? inner ',' with
  | none => .error (.openParameterList name)
  | some parts => ((parts.map trim).filter (!·.isEmpty)).mapM Parameter.parse

/-- What follows a component's name: nothing, or a parameter list. -/
def parseRest (name : String) (rest : List Char) : Except Fault (Signature × List Warning) :=
  match rest with
  | [] => .ok (⟨name, []⟩, [])
  | '(' :: _ =>
    match Nesting.closeGroup? rest with
    | none => .error (.openParameterList name)
    | some group =>
      if !allBlank group.after then
        .error (.afterParameterList (String.ofList (trim group.after)) name)
      else if allBlank group.before then .ok (⟨name, []⟩, [.emptyParentheses])
      else
        match parseParameters name group.before with
        | .ok parameters => .ok (⟨name, parameters⟩, [])
        | .error f => .error f
  | _ => .error (.noParameterList name)

/-- The signature that follows the keyword `component`. -/
def parse (text : String) : Except Fault (Signature × List Warning) :=
  let cs := trim text.toList
  let name := cs.takeWhile isIdentifierChar
  if isIdentifier name then
    parseRest (String.ofList name) (trimStart (cs.dropWhile isIdentifierChar))
  else .error (.badComponentName (String.ofList cs))

end Signature

end Stencil
