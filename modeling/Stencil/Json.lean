/-
JSON values and their text over several lines: two spaces a level, one item a line, and empty
arrays and objects closed at once. The fields of an object keep their order.
-/
namespace Stencil

inductive Json where
  | null
  | bool (b : Bool)
  /-- A number as it is spelled. -/
  | number (spelling : String)
  | string (s : String)
  /-- A string with half of a surrogate pair, or an object with such a name. It has no text: it can
  be passed over where nothing is read. -/
  | unpaired
  | array (items : List Json)
  | object (fields : List (String × Json))
  deriving Inhabited

namespace Json

def ofNat (n : Nat) : Json := .number (toString n)

def strings (items : List String) : Json := .array (items.map .string)

/-- A character inside a string. -/
def escapeChar (c : Char) : List Char :=
  if c == '"' then ['\\', '"']
  else if c == '\\' then ['\\', '\\']
  else if c == '\n' then ['\\', 'n']
  else if c == '\r' then ['\\', 'r']
  else if c == '\t' then ['\\', 't']
  else if c == '\x08' then ['\\', 'b']
  else if c == '\x0c' then ['\\', 'f']
  else if c.toNat < 0x20 then
    ['\\', 'u', '0', '0', Nat.digitChar (c.toNat / 16), Nat.digitChar (c.toNat % 16)]
  else [c]

/-- A text as a JSON string. -/
def quoted (s : String) : String := String.ofList ('"' :: (s.toList.flatMap escapeChar ++ ['"']))

/-- A line break and the indentation of the line after it. -/
def newLine (depth : Nat) : String := "\n" ++ String.ofList (List.replicate (2 * depth) ' ')

mutual

/-- The text of a value that starts on a line indented by `depth` levels. -/
def pretty (depth : Nat) : Json → String
  | null => "null"
  | bool b => if b then "true" else "false"
  | number spelling => spelling
  | string s => quoted s
  | unpaired => "null"
  | array [] => "[]"
  | array items => "[" ++ ",".intercalate (prettyItems (depth + 1) items) ++ newLine depth ++ "]"
  | object [] => "{}"
  | object fields =>
    r"{" ++ ",".intercalate (prettyFields (depth + 1) fields) ++ newLine depth ++ r"}"

def prettyItems (depth : Nat) : List Json → List String
  | [] => []
  | item :: items => (newLine depth ++ pretty depth item) :: prettyItems depth items

def prettyFields (depth : Nat) : List (String × Json) → List String
  | [] => []
  | (name, value) :: fields =>
    (newLine depth ++ quoted name ++ ": " ++ pretty depth value) :: prettyFields depth fields

end

end Json

end Stencil
