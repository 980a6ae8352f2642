/-
String literals of the host languages. Quotes, backslashes and control characters are written as
escapes; all other characters stand for themselves. The languages differ only in how they name a
control character by its number.
-/
namespace Stencil.Code

/-- The characters of the general category Cc. -/
def isControl (c : Char) : Bool :=
  c.toNat < 0x20 || (0x7F ≤ c.toNat && c.toNat < 0xA0)

/-- A number in lowercase hexadecimal. -/
def hex (n : Nat) : List Char := Nat.toDigits 16 n

/-- A number in at least `width` hexadecimal digits. -/
def paddedHex (width n : Nat) : List Char :=
  List.replicate (width - (hex n).length) '0' ++ hex n

/-- A character inside a string literal. -/
def quoteChar (numbered : Char → List Char) (c : Char) : List Char :=
  if c == '"' then ['\\', '"']
  else if c == '\\' then ['\\', '\\']
  else if c == '\n' then ['\\', 'n']
  else if c == '\r' then ['\\', 'r']
  else if c == '\t' then ['\\', 't']
  else if isControl c then numbered c
  else [c]

/-- A text as a string literal. -/
def quote (numbered : Char → List Char) (text : String) : String :=
  String.ofList ('"' :: (text.toList.flatMap (quoteChar numbered) ++ ['"']))

end Stencil.Code
