/-
Faults: the causes that keep a top-level line and all below it from compiling. Each has a kind
and a message; the line it is found at is added by whoever reads the line.
-/
import Stencil.Diagnostic
import Stencil.LineKind
import Stencil.Options

namespace Stencil

/-- What breaks the tag grammar. -/
inductive TagDefect where
  | noTagName
  | strayCharacter
  | noAttributeName
  | noEqualsSign
  deriving DecidableEq, Repr

def TagDefect.reason : TagDefect → String
  | noTagName => "expected a tag name"
  | strayCharacter => "unexpected character after the tag head"
  | noAttributeName => "expected an attribute name"
  | noEqualsSign => "expected `=` after an attribute name"

inductive Fault where
  | outsideComponent (kind : LineKind)
  | nestedComponent
  | badComponentName (text : String)
  | noParameterList (component : String)
  | openParameterList (component : String)
  | afterParameterList (text component : String)
  | unnamedParameter (declaration : String)
  | reservedName (component : String) (language : Language)
  | singleQuotes (value : String)
  | openAttributeList (tag : String)
  | noContent (tag : String)
  | noAttributeValue (name : String)
  | noEmbedded
  | openCall (component : String)
  | afterCall (text component : String)
  | badEachClause (clause : String)
  | badTag (text : String) (defect : TagDefect)
  deriving DecidableEq, Repr

namespace Fault

def kind : Fault → DiagnosticKind
  | outsideComponent _ => .componentScope
  | nestedComponent => .componentScope
  | badComponentName _ => .signature
  | noParameterList _ => .signature
  | openParameterList _ => .signature
  | afterParameterList _ _ => .signature
  | unnamedParameter _ => .signature
  | reservedName _ _ => .signature
  | singleQuotes _ => .stringQuote
  | openAttributeList _ => .unterminatedExpression
  | noContent _ => .unterminatedExpression
  | noAttributeValue _ => .unterminatedExpression
  | noEmbedded => .unterminatedExpression
  | openCall _ => .unterminatedExpression
  | afterCall _ _ => .unterminatedExpression
  | badEachClause _ => .eachSyntax
  | badTag _ _ => .malformedTag

def message : Fault → String
  | outsideComponent kind =>
    s!"{kind.describe} outside of a component: only 'component' definitions are allowed on the top level"
  | nestedComponent => "component definitions cannot be nested"
  | badComponentName text => s!"invalid component name in `{text}`"
  | noParameterList component => s!"expected `(` after component name `{component}`"
  | openParameterList component => s!"parameter list of `{component}` is not closed"
  | afterParameterList text component =>
    s!"unexpected `{text}` after parameter list of `{component}`"
  | unnamedParameter declaration => s!"parameter `{declaration}` has no name"
  | reservedName component language =>
    s!"`{component}` is reserved and cannot name a {language.title} routine"
  | singleQuotes value => s!"strings must use \" instead of ': {value}"
  | openAttributeList tag => s!"attribute list of `{tag}` is not closed"
  | noContent tag => s!"`{tag}=` is missing an expression"
  | noAttributeValue name => s!"attribute `{name}` is missing a value"
  | noEmbedded => "`go:` is missing an expression"
  | openCall component => s!"call to `{component}` is not closed"
  | afterCall text component => s!"unexpected `{text}` after call to `{component}`"
  | badEachClause clause => s!"malformed each loop `{clause}`: expected `each <var> in <expr>`"
  | badTag text defect => s!"malformed element `{text}`: {defect.reason}"

def atLine (f : Fault) (line : Nat) : Diagnostic := ⟨f.kind, line, f.message⟩

end Fault

end Stencil
