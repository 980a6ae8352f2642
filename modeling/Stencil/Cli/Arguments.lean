/-
The command line. A command takes options and patterns in any order; a long option has its value
after `=` or in the next argument, short ones may be run together, and `--` ends the options. An
option may be given once. The first thing that is wrong, or that asks for help, decides.
-/
import Stencil.Config

namespace Stencil.Cli

/-- What a build produces. -/
inductive OutputFormat where
  | code
  | json
  | stats
  deriving DecidableEq, Repr

namespace OutputFormat

def name : OutputFormat → String
  | code => "code"
  | json => "json"
  | stats => "stats"

def ofName? (s : String) : Option OutputFormat :=
  [code, json, stats].find? fun f => f.name == s

end OutputFormat

structure BuildArgs where
  patterns : List String := []
  output : Option String := none
  target : Option Language := none
  package : Option String := none
  anyLevelDedent : Bool := false
  format : OutputFormat := .code
  continueOnError : Bool := false
  config : Option String := none
  deriving DecidableEq, Repr

structure CheckArgs where
  patterns : List String := []
  anyLevelDedent : Bool := false
  json : Bool := false
  quiet : Bool := false
  config : Option String := none
  deriving DecidableEq, Repr

inductive Command where
  | build (args : BuildArgs)
  | check (args : CheckArgs)
  deriving DecidableEq, Repr

/-- Why a command line is no command. -/
inductive NoCommand where
  /-- It asks what there is to ask for. -/
  | information
  | usageError
  deriving DecidableEq, Repr

/-- What an option takes. -/
inductive ValueKind where
  | flag
  | help
  | path
  | text
  | language
  | format
  | count
  deriving DecidableEq, Repr

/-- A number of at most 64 bits, in decimal digits after an optional plus sign. -/
def isCount (cs : List Char) : Bool :=
  let digits := if cs.head? == some '+' then cs.tail else cs
  !digits.isEmpty && digits.all Char.isDigit
    && digits.foldl (fun n c => 10 * n + (c.toNat - '0'.toNat)) 0 < UInt64.size

namespace ValueKind

def takesValue : ValueKind → Bool
  | flag => false
  | help => false
  | _ => true

/-- The values that an option of this kind may have. -/
def accepts : ValueKind → String → Bool
  | path, s => !s.isEmpty
  | language, s => (Language.ofName? s).isSome
  | format, s => (OutputFormat.ofName? s).isSome
  | count, s => isCount s.toList
  | _, _ => true

end ValueKind

structure OptionSpec where
  long : String
  short : Option Char
  kind : ValueKind
  deriving DecidableEq, Repr

def sharedOptions : List OptionSpec :=
  [⟨"verbose", some 'v', .flag⟩, ⟨"help", some 'h', .help⟩]

def topOptions : List OptionSpec := sharedOptions ++ [⟨"version", some 'V', .help⟩]

def buildOptions : List OptionSpec :=
  sharedOptions ++ [
    ⟨"output", some 'o', .path⟩, ⟨"target", some 't', .language⟩, ⟨"package", none, .text⟩,
    ⟨"any-level-dedent", none, .flag⟩, ⟨"format", some 'f', .format⟩, ⟨"threads", some 'j', .count⟩,
    ⟨"continue-on-error", none, .flag⟩, ⟨"config", none, .path⟩]

def checkOptions : List OptionSpec :=
  sharedOptions ++ [
    ⟨"any-level-dedent", none, .flag⟩, ⟨"format", some 'f', .text⟩, ⟨"quiet", some 'q', .flag⟩,
    ⟨"config", none, .path⟩]

/-- The options read so far, by long name, and the other arguments. -/
structure Given where
  options : List (String × String) := []
  patterns : List String := []

namespace Given

def value? (g : Given) (long : String) : Option String := g.options.lookup long

def has (g : Given) (long : String) : Bool := (g.value? long).isSome

/-- Records an option. -/
def set (g : Given) (spec : OptionSpec) (value : String) : Except NoCommand Given :=
  if spec.kind == .help then .error .information
  else if g.has spec.long || !spec.kind.accepts value then .error .usageError
  else .ok { g with options := g.options ++ [(spec.long, value)] }

end Given

/-- An argument that is read as options and not as a value. -/
def isOption (arg : String) : Bool := arg.toList.head? == some '-' && arg != "-"

/-- Records an option whose value is the next argument. -/
def setFromNext (g : Given) (spec : OptionSpec) (next? : Option String) :
    Except NoCommand (Given × Bool) :=
  match next? with
  | some next =>
    if isOption next then .error .usageError else (g.set spec next).map fun g => (g, true)
  | none => .error .usageError

/-- Reads a long option, without its dashes. Also tells whether it took the next argument. -/
def readLong (specs : List OptionSpec) (g : Given) (body : List Char) (next? : Option String) :
    Except NoCommand (Given × Bool) :=
  let name := String.ofList (body.takeWhile (· != '='))
  match specs.find? (·.long == name), body.dropWhile (· != '=') with
  | none, _ => .error .usageError
  | some spec, [] =>
    if spec.kind.takesValue then setFromNext g spec next?
    else (g.set spec "").map fun g => (g, false)
  | some spec, _ :: value =>
    if spec.kind.takesValue then (g.set spec (String.ofList value)).map fun g => (g, false)
    else .error .usageError

/-- Reads short options that are run together. The rest after one that takes a value is its
value. -/
def readShorts (specs : List OptionSpec) (next? : Option String) :
    Given → List Char → Except NoCommand (Given × Bool)
  | g, [] => .ok (g, false)
  | g, c :: cs =>
    match specs.find? (·.short == some c) with
    | none => .error .usageError
    | some spec =>
      if spec.kind.takesValue then
        match cs with
        | [] => setFromNext g spec next?
        | '=' :: value => (g.set spec (String.ofList value)).map fun g => (g, false)
        | value => (g.set spec (String.ofList value)).map fun g => (g, false)
      else
        match g.set spec "" with
        | .ok g => readShorts specs next? g cs
        | .error e => .error e

/-- Reads an argument that starts with a dash. -/
def readOption (specs : List OptionSpec) (g : Given) (arg : String) (next? : Option String) :
    Except NoCommand (Given × Bool) :=
  match arg.toList with
  | '-' :: '-' :: body => readLong specs g body next?
  | _ :: shorts => readShorts specs next? g shorts
  | [] => .error .usageError

/-- Reads the arguments of a command. -/
def readArguments (specs : List OptionSpec) : Given → List String → Except NoCommand Given
  | g, [] => .ok g
  | g, arg :: args =>
    if arg == "--" then .ok { g with patterns := g.patterns ++ args }
    else if isOption arg then
      match readOption specs g arg args.head?, args with
      | .error e, _ => .error e
      | .ok (g, true), _ :: args => readArguments specs g args
      | .ok (g, _), args => readArguments specs g args
    else readArguments specs { g with patterns := g.patterns ++ [arg] } args

def BuildArgs.ofGiven (g : Given) : BuildArgs where
  patterns := g.patterns
  output := g.value? "output"
  target := (g.value? "target").bind Language.ofName?
  package := g.value? "package"
  anyLevelDedent := g.has "any-level-dedent"
  format := ((g.value? "format").bind OutputFormat.ofName?).getD .code
  continueOnError := g.has "continue-on-error"
  config := g.value? "config"

def CheckArgs.ofGiven (g : Given) : CheckArgs where
  patterns := g.patterns
  anyLevelDedent := g.has "any-level-dedent"
  json := g.value? "format" == some "json"
  quiet := g.has "quiet"
  config := g.value? "config"

/-- Reads a command and its arguments. -/
def readCommand (command : String) (args : List String) : Except NoCommand Command :=
  match command with
  | "build" => (readArguments buildOptions {} args).map fun g => .build (.ofGiven g)
  | "check" => (readArguments checkOptions {} args).map fun g => .check (.ofGiven g)
  | "help" =>
    match args with
    | [] => .error .information
    | [topic] =>
      if ["build", "check", "help"].contains topic then .error .information
      else .error .usageError
    | _ => .error .usageError
  | _ => .error .usageError

/-- Reads a command line. Without a command it is a build. -/
def readCommandLine : Given → List String → Except NoCommand Command
  | _, [] => .ok (.build {})
  | g, arg :: args =>
    if arg == "--" then if args.isEmpty then .ok (.build {}) else .error .usageError
    else if isOption arg then
      match readOption topOptions g arg args.head? with
      | .ok (g, _) => readCommandLine g args
      | .error e => .error e
    else readCommand arg args

def parseArguments (args : List String) : Except NoCommand Command := readCommandLine {} args

/-- The options of the configuration with those of the command line on top. -/
def BuildArgs.options (args : BuildArgs) (config : Config) : Options :=
  { config.compiler with
    target := args.target.getD config.compiler.target
    packageName := args.package.getD config.compiler.packageName
    dedent := if args.anyLevelDedent then .anyLevel else config.compiler.dedent }

def CheckArgs.options (args : CheckArgs) (config : Config) : Options :=
  { config.compiler with
    dedent := if args.anyLevelDedent then .anyLevel else config.compiler.dedent }

/-- The output of a build that names none. -/
def defaultOutput : Language → String
  | .rust => "components.rs"
  | .go => "components.go"

/-- Where a build for this language writes its output. -/
def BuildArgs.outputPath (args : BuildArgs) (config : Config) (target : Language) : String :=
  (args.output.or config.build.output).getD (defaultOutput target)

end Stencil.Cli
