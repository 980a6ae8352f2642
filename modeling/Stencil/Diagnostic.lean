/-
Diagnostics: what is wrong with a source, at which line, and how it is shown.
-/
namespace Stencil

inductive Severity where
  | error
  | warning
  deriving DecidableEq, Repr

def Severity.label : Severity → String
  | error => "error"
  | warning => "warning"

/-- The classes of diagnostics. -/
inductive DiagnosticKind where
  /-- A line that fits nowhere in the outline. No component of the source is compiled. -/
  | indentation
  /-- A line outside a component, or a component inside another. -/
  | componentScope
  /-- A component name or parameter list that cannot be read. -/
  | signature
  /-- An attribute value in single quotes. -/
  | stringQuote
  /-- An expression that is missing or not closed. -/
  | unterminatedExpression
  /-- An `each` line without a variable or a collection. -/
  | eachSyntax
  /-- An element that breaks the tag grammar. -/
  | malformedTag
  /-- An empty parameter list. -/
  | parenthesesStyle
  /-- Lines below a call. -/
  | ignoredChildren
  deriving DecidableEq, Repr

namespace DiagnosticKind

def all : List DiagnosticKind :=
  [indentation, componentScope, signature, stringQuote, unterminatedExpression, eachSyntax,
    malformedTag, parenthesesStyle, ignoredChildren]

/-- The name of a kind in machine-readable reports. -/
def name : DiagnosticKind → String
  | indentation => "indentation"
  | componentScope => "componentScope"
  | signature => "signature"
  | stringQuote => "stringQuote"
  | unterminatedExpression => "unterminatedExpression"
  | eachSyntax => "eachSyntax"
  | malformedTag => "malformedTag"
  | parenthesesStyle => "parenthesesStyle"
  | ignoredChildren => "ignoredChildren"

def ofName? (s : String) : Option DiagnosticKind := all.find? fun k => k.name == s

def code : DiagnosticKind → Nat
  | indentation => 1
  | componentScope => 2
  | signature => 3
  | stringQuote => 4
  | unterminatedExpression => 5
  | eachSyntax => 6
  | malformedTag => 7
  | parenthesesStyle => 32
  | ignoredChildren => 33

def severity : DiagnosticKind → Severity
  | parenthesesStyle => .warning
  | ignoredChildren => .warning
  | _ => .error

/-- One sentence on a kind, whatever the source. -/
def summary : DiagnosticKind → String
  | indentation => "Invalid indentation."
  | componentScope => "Only 'component' definitions are allowed on the top level."
  | signature => "Malformed component signature."
  | stringQuote => "Strings must use \" instead of '."
  | unterminatedExpression => "Unterminated expression."
  | eachSyntax => "Expected `each <var> in <expr>`."
  | malformedTag => "Malformed element."
  | parenthesesStyle =>
    "Components without parameters should not include parentheses in the definition."
  | ignoredChildren => "Lines below a component call are ignored."

end DiagnosticKind

structure Diagnostic where
  kind : DiagnosticKind
  line : Nat
  message : String
  deriving DecidableEq, Repr

namespace Diagnostic

def severity (d : Diagnostic) : Severity := d.kind.severity

def isError (d : Diagnostic) : Bool := d.severity == .error

/-- A number in at least three digits. -/
def threeDigits (n : Nat) : String :=
  let digits := Nat.toDigits 10 n
  String.ofList (List.replicate (3 - digits.length) '0' ++ digits)

/-- The text of a diagnostic in reports. -/
def display (d : Diagnostic) : String :=
  s!"{d.severity.label}[S{threeDigits d.kind.code}] line {d.line}: {d.message}"

/-- The text of a diagnostic in a report on several files. -/
def displayIn (path : String) (d : Diagnostic) : String := s!"{path}: {d.display}"

end Diagnostic

/-- What is odd about a source without keeping it from compiling. -/
inductive Warning where
  | emptyParentheses
  | ignoredLines (count : Nat)
  deriving DecidableEq, Repr

namespace Warning

def kind : Warning → DiagnosticKind
  | emptyParentheses => .parenthesesStyle
  | ignoredLines _ => .ignoredChildren

def message : Warning → String
  | emptyParentheses => DiagnosticKind.parenthesesStyle.summary
  | ignoredLines count => s!"{count} line(s) below the call are ignored"

def atLine (w : Warning) (line : Nat) : Diagnostic := ⟨w.kind, line, w.message⟩

end Warning

end Stencil
