/-
Words: the character classes that names are made of, identifiers of the host languages, and the
conversion of component names between cases. Lengths are counted in UTF-8 bytes.
-/
import Stencil.Text.Alphanumeric
import Stencil.Text.LetterCase

namespace Stencil.Text

/-- Characters of a keyword, an `#id` or a `.class` name. -/
def isKeywordChar (c : Char) : Bool := isAlphanumeric c || c == '-'

/-- Characters of an attribute name. -/
def isAttributeChar (c : Char) : Bool := isAlphanumeric c || c == '-' || c == '_' || c == ':'

/-- Characters of a host-language identifier. -/
def isIdentifierChar (c : Char) : Bool := c.isAlphanum || c == '_'

/-- A plain identifier: an ASCII letter or underscore, then identifier characters. -/
def isIdentifier : List Char → Bool
  | [] => false
  | c :: cs => (c.isAlpha || c == '_') && cs.all isIdentifierChar

/-- The length of a text in UTF-8 bytes. -/
def byteLength (cs : List Char) : Nat := cs.foldr (fun c n => c.utf8Size + n) 0

/-- The length in bytes of the longest initial run of characters that satisfy `p`. -/
def runLength (p : Char → Bool) (cs : List Char) : Nat := byteLength (cs.takeWhile p)

/-- Whether a capital between these neighbours begins a word. A run of capitals stays together up
to the one that a lowercase letter follows. -/
def beginsWord (previous next : Option Char) : Bool :=
  match previous with
  | none => false
  | some p =>
    if p == '_' then false
    else if isLowercase p || p.isDigit then true
    else isUppercase p && next.any isLowercase

/-- `snakeCase` for the rest of a text whose last character so far is `previous`. -/
def snakeCaseAfter (previous : Option Char) : List Char → List Char
  | [] => []
  | c :: cs =>
    let rest := snakeCaseAfter (some c) cs
    if isUppercase c then
      if beginsWord previous cs.head? then '_' :: (lowercase c ++ rest) else lowercase c ++ rest
    else c :: rest

/-- Words run together in capitals, written apart with underscores: `HTMLPage` is `html_page`. -/
def snakeCase (cs : List Char) : List Char := snakeCaseAfter none cs

/-- The text with its first character in uppercase. -/
def capitalize : List Char → List Char
  | [] => []
  | c :: cs => uppercase c ++ cs

@[simp] theorem byteLength_nil : byteLength [] = 0 := rfl

@[simp] theorem byteLength_cons (c : Char) (cs : List Char) :
    byteLength (c :: cs) = c.utf8Size + byteLength cs := rfl

theorem byteLength_append (as bs : List Char) :
    byteLength (as ++ bs) = byteLength as + byteLength bs := by
  induction as with
  | nil => simp
  | cons a as ih => simp [ih, Nat.add_assoc]

end Stencil.Text
