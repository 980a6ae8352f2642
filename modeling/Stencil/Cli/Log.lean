/-
Lines of the log. A character that could steer a terminal is written by its number, so that what a
line quotes cannot.
-/
namespace Stencil.Cli

/-- Escape, bell, backspace, form feed and delete. -/
def isSteering (c : Char) : Bool := ['\x1b', '\x07', '\x08', '\x0c', '\x7f'].contains c

/-- The control characters above the first 128 characters. -/
def isHighControl (c : Char) : Bool := 0x80 ≤ c.toNat && c.toNat ≤ 0x9f

/-- The two hexadecimal digits of a character below 256. -/
def twoHexDigits (c : Char) : List Char :=
  [Nat.digitChar (c.toNat / 16), Nat.digitChar (c.toNat % 16)]

/-- A character in the log. -/
def logChar (c : Char) : List Char :=
  if isSteering c then '\\' :: 'x' :: twoHexDigits c
  else if isHighControl c then '\\' :: 'u' :: '{' :: twoHexDigits c ++ ['}']
  else [c]

/-- A warning of the log. -/
def warning (text : String) : String := " WARN " ++ String.ofList (text.toList.flatMap logChar)

end Stencil.Cli
