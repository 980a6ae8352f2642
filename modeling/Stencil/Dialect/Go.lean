/-
Go routines. A component keeps its name, and the buffer is a `strings.Builder` of a pool that the
file header declares.
-/
import Stencil.Code.Quote
import Stencil.Dialect

namespace Stencil.Dialect.Go

def keywords : List String :=
  ["break", "case", "chan", "const", "continue", "default", "defer", "else", "fallthrough", "for",
    "func", "go", "goto", "if", "import", "interface", "map", "package", "range", "return",
    "select", "struct", "switch", "type", "var"]

/-- Names that the file header declares, and the name of package initializers. -/
def reservedNames : List String :=
  ["pool", "acquireStringsBuilder", "releaseStringsBuilder", "init"]

def isKeyword (word : String) : Bool := keywords.contains word

def streamingName (name : String) : String :=
  "stream" ++ String.ofList (Text.capitalize name.toList)

def routineNames (name : String) : Option (String × String) :=
  if name == "_" || isKeyword name || reservedNames.contains name then none
  else some (name, streamingName name)

/-- The pool of builders that all routines of a package share. -/
def poolHelpers : String :=
  r"
var pool sync.Pool

func acquireStringsBuilder() *strings.Builder {
	obj := pool.Get()

	if obj == nil {
		return &strings.Builder{}
	}

	_b := obj.(*strings.Builder)
	_b.Reset()
	return _b
}

func releaseStringsBuilder(_b *strings.Builder) {
	pool.Put(_b)
}

var _ = fmt.Sprint
var _ = html.EscapeString
"

def fileHeader (package : String) : String :=
  "// Code generated by sprig. DO NOT EDIT.\n\npackage " ++ package
    ++ "\n\nimport (\n\t\"fmt\"\n\t\"html\"\n\t\"strings\"\n\t\"sync\"\n)\n" ++ poolHelpers

/-- A control character by its number in four digits. -/
def numbered (c : Char) : List Char := ['\\', 'u'] ++ Code.paddedHex 4 c.toNat

def stringLiteral (text : String) : String := Code.quote numbered text

def escaped (expr : String) : String := "html.EscapeString(fmt.Sprint(" ++ expr ++ "))"

def writeStatement (value : String) : String := "_b.WriteString(" ++ value ++ ")"

def callStatement (name args : String) : String :=
  streamingName name ++ "(" ++ callArguments "_b" args ++ ")"

def blockHeader : Header → String
  | .raw text => text
  | .each binding iterable => "for _, " ++ binding ++ " := range " ++ iterable

def returnStatement (i : Instruction) : String :=
  let value :=
    match i with
    | .literal text => stringLiteral text
    | .expression expr true => escaped expr
    | .expression expr false => expr
    | .call name args => name ++ "(" ++ String.ofList (Text.trim args.toList) ++ ")"
    | .control _ _ => "\"\""
  "return " ++ value

def pooledBody (s : Signature) : List String :=
  ["_b := acquireStringsBuilder()",
    streamingName s.name ++ "(" ++ callArguments "_b" (forwardedParameters s) ++ ")",
    "_out := _b.String()",
    "releaseStringsBuilder(_b)",
    "return _out"]

def indentUnit : String := "\t"

def routines (s : Signature) (buffered streaming : String) : String :=
  let parameters := declaredParameters s
  framed indentUnit ("func " ++ s.name ++ "(" ++ parameters ++ ") string ")
    ("func " ++ streamingName s.name ++ "("
      ++ callArguments "_b *strings.Builder" parameters ++ ") ")
    buffered streaming

end Go

def go : Dialect where
  language := .go
  indentUnit := Go.indentUnit
  routineNames := Go.routineNames
  fileHeader := Go.fileHeader
  stringLiteral := Go.stringLiteral
  literalStatement text := Go.writeStatement (Go.stringLiteral text)
  expressionStatement expr escape := Go.writeStatement (if escape then Go.escaped expr else expr)
  callStatement := Go.callStatement
  blockHeader := Go.blockHeader
  returnStatement := Go.returnStatement
  pooledBody := Go.pooledBody
  routines := Go.routines

end Stencil.Dialect
