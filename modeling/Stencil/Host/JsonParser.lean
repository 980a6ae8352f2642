/-
Reading JSON, by the letter of its grammar: no comments, no commas too many, no other white space
than blanks, tabs and line breaks, and nothing after the value.
-/
import Stencil.Json

namespace Stencil.Json

def isSpace (c : Char) : Bool := c == ' ' || c == '\t' || c == '\n' || c == '\r'

def skipSpace (cs : List Char) : List Char := cs.dropWhile isSpace

def hexDigit? (c : Char) : Option Nat :=
  if '0' ≤ c && c ≤ '9' then some (c.toNat - '0'.toNat)
  else if 'a' ≤ c && c ≤ 'f' then some (c.toNat - 'a'.toNat + 10)
  else if 'A' ≤ c && c ≤ 'F' then some (c.toNat - 'A'.toNat + 10)
  else none

/-- The code unit that four hexadecimal digits name. -/
def codeUnit? (a b c d : Char) : Option Nat := do
  let a ← hexDigit? a
  let b ← hexDigit? b
  let c ← hexDigit? c
  let d ← hexDigit? d
  pure (((a * 16 + b) * 16 + c) * 16 + d)

def isHighSurrogate (n : Nat) : Bool := 0xD800 ≤ n && n < 0xDC00

def isLowSurrogate (n : Nat) : Bool := 0xDC00 ≤ n && n < 0xE000

/-- The character of a surrogate pair. -/
def joinSurrogates (high low : Nat) : Char :=
  Char.ofNat (0x10000 + (high - 0xD800) * 0x400 + (low - 0xDC00))

/-- The character that a backslash and this one stand for. -/
def namedEscape? : Char → Option Char
  | '"' => some '"'
  | '\\' => some '\\'
  | '/' => some '/'
  | 'b' => some '\x08'
  | 'f' => some '\x0c'
  | 'n' => some '\n'
  | 'r' => some '\r'
  | 't' => some '\t'
  | _ => none

/-- Puts a character in front of a string that has a text. -/
def consText (c : Char) : Option (List Char) × List Char → Option (List Char) × List Char
  | (text, rest) => (text.map (c :: ·), rest)

/-- The text of a string after its opening quote, and what follows its closing quote. A string with
half of a surrogate pair has no text. -/
def stringRest? : List Char → Option (Option (List Char) × List Char)
  | [] => none
  | '"' :: cs => some (some [], cs)
  | '\\' :: 'u' :: a :: b :: c :: d :: '\\' :: 'u' :: e :: f :: g :: h :: cs => do
    let first ← codeUnit? a b c d
    let second ← codeUnit? e f g h
    if isHighSurrogate first && isLowSurrogate second then
      pure (consText (joinSurrogates first second) (← stringRest? cs))
    else
      let (text, rest) ← stringRest? ('\\' :: 'u' :: e :: f :: g :: h :: cs)
      if isHighSurrogate first || isLowSurrogate first then pure (none, rest)
      else pure (consText (Char.ofNat first) (text, rest))
  | '\\' :: 'u' :: a :: b :: c :: d :: cs => do
    let unit ← codeUnit? a b c d
    let (text, rest) ← stringRest? cs
    if isHighSurrogate unit || isLowSurrogate unit then pure (none, rest)
    else pure (consText (Char.ofNat unit) (text, rest))
  | '\\' :: e :: cs => do
    let c ← namedEscape? e
    pure (consText c (← stringRest? cs))
  | c :: cs =>
    if c.toNat < 0x20 || c == '\\' then none
    else (stringRest? cs).map (consText c)

/-- One or more digits, and what follows them. -/
def digits? (cs : List Char) : Option (List Char × List Char) :=
  let ds := cs.takeWhile Char.isDigit
  if ds.isEmpty then none else some (ds, cs.dropWhile Char.isDigit)

/-- The digits before the point. Only zero starts with a zero. -/
def wholePart? (cs : List Char) : Option (List Char × List Char) := do
  let (ds, rest) ← digits? cs
  if ds.head? == some '0' && ds.length != 1 then none else pure (ds, rest)

def fraction? : List Char → Option (List Char × List Char)
  | '.' :: cs => do
    let (ds, rest) ← digits? cs
    pure ('.' :: ds, rest)
  | cs => some ([], cs)

def exponent? : List Char → Option (List Char × List Char)
  | c :: cs =>
    if c == 'e' || c == 'E' then do
      let sign := if cs.head? == some '+' || cs.head? == some '-' then cs.take 1 else []
      let (ds, rest) ← digits? (cs.drop sign.length)
      pure (c :: sign ++ ds, rest)
    else some ([], c :: cs)
  | [] => some ([], [])

/-- A number in its spelling, and what follows it. -/
def number? (cs : List Char) : Option (String × List Char) := do
  let sign := if cs.head? == some '-' then ['-'] else []
  let (whole, cs) ← wholePart? (cs.drop sign.length)
  let (fraction, cs) ← fraction? cs
  let (exponent, cs) ← exponent? cs
  pure (String.ofList (sign ++ whole ++ fraction ++ exponent), cs)

mutual

/-- A value nested at most `fuel` levels deep, and what follows it. -/
def value? (fuel : Nat) (cs : List Char) : Option (Json × List Char) :=
  match fuel with
  | 0 => none
  | fuel + 1 =>
    match skipSpace cs with
    | 'n' :: 'u' :: 'l' :: 'l' :: rest => some (.null, rest)
    | 't' :: 'r' :: 'u' :: 'e' :: rest => some (.bool true, rest)
    | 'f' :: 'a' :: 'l' :: 's' :: 'e' :: rest => some (.bool false, rest)
    | '"' :: rest => do
      let (text, rest) ← stringRest? rest
      match text with
      | some cs => pure (.string (String.ofList cs), rest)
      | none => pure (.unpaired, rest)
    | '[' :: rest =>
      match skipSpace rest with
      | ']' :: rest => some (.array [], rest)
      | rest => do
        let (items, rest) ← items? fuel rest
        pure (.array items, rest)
    | '{' :: rest =>
      match skipSpace rest with
      | '}' :: rest => some (.object [], rest)
      | rest => do
        let (fields, rest) ← fields? fuel rest
        match fields with
        | some fields => pure (.object fields, rest)
        | none => pure (.unpaired, rest)
    | rest => do
      let (spelling, rest) ← number? rest
      pure (.number spelling, rest)

/-- The items of an array up to its closing bracket. -/
def items? (fuel : Nat) (cs : List Char) : Option (List Json × List Char) :=
  match fuel with
  | 0 => none
  | fuel + 1 => do
    let (item, rest) ← value? fuel cs
    match skipSpace rest with
    | ',' :: rest =>
      let (items, rest) ← items? fuel rest
      pure (item :: items, rest)
    | ']' :: rest => pure ([item], rest)
    | _ => none

/-- The fields of an object up to its closing brace, unless a name has no text. -/
def fields? (fuel : Nat) (cs : List Char) :
    Option (Option (List (String × Json)) × List Char) :=
  match fuel with
  | 0 => none
  | fuel + 1 =>
    match skipSpace cs with
    | '"' :: rest => do
      let (name, rest) ← stringRest? rest
      match skipSpace rest with
      | ':' :: rest =>
        let (value, rest) ← value? fuel rest
        let field := name.map fun cs => (String.ofList cs, value)
        match skipSpace rest with
        | ',' :: rest =>
          let (fields, rest) ← fields? fuel rest
          pure (field.bind fun f => fields.map (f :: ·), rest)
        | '}' :: rest => pure (field.map fun f => [f], rest)
        | _ => none
      | _ => none
    | _ => none

end

/-- The value that a text is. Every level and every item takes at least one character, so the
length of the text bounds the work. -/
def parse? (text : String) : Option Json := do
  let (value, rest) ← value? (text.length + 1) text.toList
  if (skipSpace rest).isEmpty then pure value else none

end Stencil.Json
