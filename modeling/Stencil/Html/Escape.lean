/-
Escaping values for HTML. Five characters are written as entities, and a buffer is extended run by
run: the characters up to the next of the five, then its entity. A value may arrive in several
pieces; how it is cut does not show in the result.
-/
namespace Stencil.Html

/-- The entity that a character is written as. -/
def entity? : Char → Option String
  | '&' => some "&amp;"
  | '<' => some "&lt;"
  | '>' => some "&gt;"
  | '"' => some "&#34;"
  | '\'' => some "&#39;"
  | _ => none

/-- Appends a text to a buffer, escaped. `run` holds the characters since the last entity, latest
first. -/
def pushRuns (buffer : String) (run : List Char) : List Char → String
  | [] => buffer ++ String.ofList run.reverse
  | c :: cs =>
    match entity? c with
    | some entity => pushRuns (buffer ++ String.ofList run.reverse ++ entity) [] cs
    | none => pushRuns buffer (c :: run) cs

def pushEscaped (buffer text : String) : String := pushRuns buffer [] text.toList

/-- Some character of the text is written as an entity. -/
def needsEscaping (text : String) : Bool := text.toList.any fun c => (entity? c).isSome

/-- A text, escaped. One that holds none of the five characters stays as it is. -/
def escape (text : String) : String :=
  if needsEscaping text then pushEscaped "" text else text

/-- A value that a template can write. -/
inductive Value where
  | text (s : String)
  | flag (b : Bool)
  | number (i : Int)
  deriving DecidableEq, Repr

/-- The pieces in which a value is shown. -/
def Value.pieces : Value → List String
  | text s => [s]
  | flag b => [if b then "true" else "false"]
  | number i => [toString i]

/-- Appends the pieces of a value as they are. -/
def writeRaw (buffer : String) (pieces : List String) : String := pieces.foldl (· ++ ·) buffer

end Stencil.Html
