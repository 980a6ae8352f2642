/-
Elements: what an element line says, and the instructions that write it. The opening tag has the
id first, then the classes, then the other attributes in the order they were first named; its
texts are joined, so that a tag without expressions is a single text.
-/
import Stencil.Html.Tag
import Stencil.Instruction

namespace Stencil

inductive AttributeValue where
  /-- A name alone. -/
  | boolean
  /-- A text that holds no apostrophe. -/
  | literal (text : String)
  | expression (expr : String) (escape : Bool)
  deriving DecidableEq, Repr

/-- What stands in an element before its children. -/
inductive Content where
  | empty
  | text (text : String)
  | expression (expr : String) (escape : Bool)
  deriving DecidableEq, Repr

structure Element where
  tag : String
  id : Option AttributeValue := none
  /-- The `.class` names in order. -/
  classes : List String := []
  /-- The attribute named `class`. -/
  explicitClass : Option AttributeValue := none
  /-- The other attributes, each name once. -/
  attributes : List (String × AttributeValue) := []
  content : Content := .empty
  deriving DecidableEq, Repr

namespace Element

/-- Replaces the value under a name, or adds the name at the end. -/
def assign (name : String) (value : AttributeValue) :
    List (String × AttributeValue) → List (String × AttributeValue)
  | [] => [(name, value)]
  | (n, v) :: rest => if n == name then (n, value) :: rest else (n, v) :: assign name value rest

/-- The last value given to an attribute counts. -/
def setAttribute (e : Element) (name : String) (value : AttributeValue) : Element :=
  if name == "id" then { e with id := some value }
  else if name == "class" then { e with explicitClass := some value }
  else { e with attributes := assign name value e.attributes }

/-- The value of `class` that the `.class` names and the attribute give together, after a text to
write in front of it. -/
def mergedClass (e : Element) : Option (String × AttributeValue) :=
  let names := " ".intercalate e.classes
  if names.isEmpty then e.explicitClass.map fun value => ("", value)
  else
    match e.explicitClass with
    | none => some ("", .literal names)
    | some .boolean => some ("", .literal names)
    | some (.literal text) => some ("", .literal (names ++ " " ++ text))
    | some (.expression expr escape) => some (names ++ " ", .expression expr escape)

/-- Appends an attribute with its value in apostrophes, `lead` in front of the value. -/
def writeAttribute (out : Instructions) (name lead : String) (value : AttributeValue) :
    Instructions :=
  let out := (out.pushLiteral " ").pushLiteral name
  match value with
  | .boolean => out
  | .literal text =>
    (((out.pushLiteral "='").pushLiteral lead).pushLiteral text).pushLiteral "'"
  | .expression expr escape =>
    Instructions.pushLiteral
      (((out.pushLiteral "='").pushLiteral lead) ++ [.expression expr escape]) "'"

/-- The attributes in the order they are written, each with the text in front of its value. -/
def writtenAttributes (e : Element) : List (String × String × AttributeValue) :=
  (e.id.map fun value => ("id", "", value)).toList
    ++ (e.mergedClass.map fun (lead, value) => ("class", lead, value)).toList
    ++ e.attributes.map fun (name, value) => (name, "", value)

/-- The instructions that write the opening tag. -/
def openingTag (e : Element) : Instructions :=
  let head := (Instructions.pushLiteral [] "<").pushLiteral e.tag
  let attributes := e.writtenAttributes.foldl (fun out (name, lead, value) =>
    writeAttribute out name lead value) head
  attributes.pushLiteral ">"

def contentInstructions : Content → Instructions
  | .empty => []
  | .text text => [.literal text]
  | .expression expr escape => [.expression expr escape]

/-- The instructions that write the element around its children. -/
def lower (e : Element) (children : Instructions) (isVoid : Bool) : Instructions :=
  (if e.tag == Html.documentTag then [.literal Html.doctype] else [])
    ++ e.openingTag ++ contentInstructions e.content ++ children
    ++ (if isVoid then [] else [.literal ("</" ++ e.tag ++ ">")])

end Element

end Stencil
