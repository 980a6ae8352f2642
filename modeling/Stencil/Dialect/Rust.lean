/-
Rust routines. Names are in snake case, a keyword among them in its raw form, and the buffer is a
`String` written to through the functions of a support library.
-/
import Stencil.Code.Quote
import Stencil.Dialect

namespace Stencil.Dialect.Rust

def keywords : List String :=
  ["as", "async", "await", "break", "const", "continue", "crate", "dyn", "else", "enum", "extern",
    "false", "fn", "for", "if", "impl", "in", "let", "loop", "match", "mod", "move", "mut", "pub",
    "ref", "return", "self", "Self", "static", "struct", "super", "trait", "true", "type", "unsafe",
    "use", "where", "while", "abstract", "become", "box", "do", "final", "gen", "macro", "override",
    "priv", "try", "typeof", "unsized", "virtual", "yield"]

/-- Keywords that have no raw form. -/
def pathKeywords : List String := ["crate", "self", "Self", "super"]

def isKeyword (word : String) : Bool := keywords.contains word

/-- A word as an identifier, in the raw form when it is a keyword. -/
def identifier? (word : String) : Option String :=
  if word == "_" || pathKeywords.contains word then none
  else if isKeyword word then some ("r#" ++ word)
  else some word

def snakeName (name : String) : String := String.ofList (Text.snakeCase name.toList)

def bufferedName (name : String) : String := (identifier? (snakeName name)).getD (snakeName name)

def streamingName (name : String) : String := "stream_" ++ snakeName name

def routineNames (name : String) : Option (String × String) :=
  (identifier? (snakeName name)).map fun _ => (bufferedName name, streamingName name)

def fileHeader (package : String) : String :=
  "// Code generated by sprig. DO NOT EDIT.\n// Module: " ++ package
    ++ "\n#![allow(unused_mut, unused_variables, clippy::all)]\n"

/-- A control character by its number in braces. -/
def numbered (c : Char) : List Char := ['\\', 'u', '{'] ++ Code.hex c.toNat ++ ['}']

def stringLiteral (text : String) : String := Code.quote numbered text

def expressionStatement (runtime expr : String) (escape : Bool) : String :=
  runtime ++ (if escape then "::write_escaped" else "::write_raw") ++ "(_b, &(" ++ expr ++ "));"

def callStatement (name args : String) : String :=
  streamingName name ++ "(" ++ callArguments "_b" args ++ ");"

def blockHeader : Header → String
  | .raw text => text
  | .each binding iterable => "for " ++ binding ++ " in " ++ iterable

def returnStatement (runtime : String) : Instruction → String
  | .literal text => "String::from(" ++ stringLiteral text ++ ")"
  | .expression expr true => runtime ++ "::escape_to_string(&(" ++ expr ++ "))"
  | .expression expr false => "(" ++ expr ++ ").to_string()"
  | .call name args => bufferedName name ++ "(" ++ String.ofList (Text.trim args.toList) ++ ")"
  | .control _ _ => "String::new()"

def pooledBody (runtime : String) (s : Signature) : List String :=
  ["let mut _b = " ++ runtime ++ "::acquire_buffer();",
    streamingName s.name ++ "(" ++ callArguments "&mut _b" (forwardedParameters s) ++ ");",
    "let _out = _b.as_str().to_owned();",
    runtime ++ "::release_buffer(_b);",
    "_out"]

def indentUnit : String := "    "

def routines (s : Signature) (buffered streaming : String) : String :=
  let parameters := declaredParameters s
  framed indentUnit ("pub fn " ++ bufferedName s.name ++ "(" ++ parameters ++ ") -> String ")
    ("pub fn " ++ streamingName s.name ++ "("
      ++ callArguments "_b: &mut String" parameters ++ ") ")
    buffered streaming

end Rust

/-- Rust, with the support library at the path `runtime`. -/
def rust (runtime : String) : Dialect where
  language := .rust
  indentUnit := Rust.indentUnit
  routineNames := Rust.routineNames
  fileHeader := Rust.fileHeader
  stringLiteral := Rust.stringLiteral
  literalStatement text := "_b.push_str(" ++ Rust.stringLiteral text ++ ");"
  expressionStatement := Rust.expressionStatement runtime
  callStatement := Rust.callStatement
  blockHeader := Rust.blockHeader
  returnStatement := Rust.returnStatement runtime
  pooledBody := Rust.pooledBody runtime
  routines := Rust.routines

end Stencil.Dialect
