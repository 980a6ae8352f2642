/-
Lines of a text. A line feed ends a line, a carriage return right before it belongs to the line
break, and a text that ends with a line break has no further line after it.
-/
namespace Stencil.Text

/-- The lines of a text, without their line breaks. A carriage return that no line feed follows
stays in its line. -/
def lines : List Char → List (List Char)
  | [] => []
  | '\n' :: cs => [] :: lines cs
  | '\r' :: '\n' :: cs => [] :: lines cs
  | c :: cs =>
    match lines cs with
    | [] => [[c]]
    | l :: ls => (c :: l) :: ls

end Stencil.Text
