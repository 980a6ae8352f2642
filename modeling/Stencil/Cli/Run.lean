/-
Running a command on the files below the working directory: what is printed, what is written, and
the exit status. A build writes its output only when nothing is wrong, unless it is told to go on,
and leaves a file alone that already holds it.
-/
import Stencil.Cli.Arguments
import Stencil.Cli.Log
import Stencil.Cli.Report
import Stencil.Cli.Sources
import Stencil.Digest

namespace Stencil.Cli

/-- Where a command runs. -/
structure Workplace where
  /-- The working directory's own path. -/
  directory : String
  files : FileSystem

structure Outcome where
  exit : Nat
  stdout : String := ""
  /-- Lines for the standard error stream. -/
  stderr : List String := []
  /-- What to put around the elapsed time at the end of the last line. -/
  elapsed : Option (String × String) := none
  /-- The file that was to be written, with its content. -/
  output : Option (String × String) := none
  /-- The files afterwards. -/
  files : FileSystem

/-- The configuration of a command, and the warnings on the way to it. -/
def loadConfig (tools : Tools) (place : Workplace) (explicit : Option String) :
    Config × List String :=
  let readFrom := fun (path shown : String) =>
    match place.files.text path with
    | .error e => (({} : Config), [warning ("Failed to read " ++ shown ++ ": " ++ e.message)])
    | .ok content =>
      match tools.readConfig content with
      | none => ({}, [warning ("Failed to parse " ++ shown)])
      | some config => (config, [])
  match explicit with
  | some path => readFrom path path
  | none =>
    if (place.files.lookup? Config.fileName).isSome then
      readFrom Config.fileName (Path.join place.directory Config.fileName)
    else ({}, [])

/-- Files as they compile, apart from those that cannot be read. -/
structure Compiled where
  results : List FileResult
  unreadable : List (String × FileFault)
  sourceBytes : Nat

def compileFiles (fs : FileSystem) (options : Options) (paths : List String) : Compiled where
  results := paths.filterMap fun path =>
    (fs.text? path).map fun source => ⟨path, compile options source⟩
  unreadable := paths.filterMap fun path =>
    match fs.text path with
    | .ok _ => none
    | .error e => some (path, e)
  sourceBytes := (String.join (paths.filterMap fs.text?)).utf8ByteSize

namespace Compiled

def diagnostics (c : Compiled) : List Diagnostic := c.results.flatMap (·.output.diagnostics)

/-- Errors in files, and files that cannot be read. -/
def errors (c : Compiled) : Nat := (c.diagnostics.filter (·.isError)).length + c.unreadable.length

def warnings (c : Compiled) : Nat := (c.diagnostics.filter (!·.isError)).length

def components (c : Compiled) : List CompiledComponent := c.results.flatMap (·.output.components)

/-- A line for each file that cannot be read, then one for each diagnostic. -/
def report (c : Compiled) : List String :=
  (c.unreadable.map fun (path, e) =>
      "Error compiling " ++ path ++ ": Failed to read file: " ++ e.message)
    ++ c.results.flatMap fun f => f.output.diagnostics.map (·.displayIn f.path)

end Compiled

/-- What is said of arguments that lead nowhere. -/
def missingWarnings (missing : List String) : List String :=
  missing.map fun p => warning ("No such file or directory: " ++ p)

def nothingFound : String := "No template files found matching the patterns"

/-- How the output of a build went. -/
inductive Written where
  /-- The format asks for no file. -/
  | notAsked
  /-- There were errors. -/
  | withheld
  | upToDate
  /-- Directories may have been made. -/
  | failed (fault : FileFault) (files : FileSystem)
  | done (files : FileSystem)

/-- Writes a text unless the file holds it already. -/
def writeIfChanged (tools : Tools) (fs : FileSystem) (path content : String) : Written :=
  if Digest.isUnchanged tools.digest (fs.text? path) content then .upToDate
  else
    match fs.write path content.toUTF8 with
    | (files, none) => .done files
    | (files, some e) => .failed e files

/-- Writes the output of a build with so many errors, if it is to be written. -/
def writeOutput (tools : Tools) (fs : FileSystem) (args : BuildArgs) (errors : Nat)
    (path code : String) : Written :=
  if args.format != .code then .notAsked
  else if 0 < errors && !args.continueOnError then .withheld
  else writeIfChanged tools fs path code

def writeFailure (path cause : String) : String := "Failed to write " ++ path ++ ": " ++ cause

/-- One file, several files. -/
def fileWord (n : Nat) : String := if n = 1 then "file" else "files"

def runBuild (tools : Tools) (place : Workplace) (args : BuildArgs) : Outcome :=
  let (config, configWarnings) := loadConfig tools place args.config
  let options := args.options config
  let patterns := resolvePatterns args.patterns config.build.sources
  let (paths, missing) := collectFiles tools place.files patterns
  let opening := configWarnings ++ missingWarnings missing
  if paths.isEmpty then
    { exit := 1, stderr := opening ++ [nothingFound], files := place.files }
  else
    let compiled := compileFiles place.files options paths
    let clashes := Clash.find options.dialect compiled.results
    let errors := compiled.errors + clashes.length
    let code := bundle options compiled.components
    let path := args.outputPath config options.target
    let written := writeOutput tools place.files args errors path code
    let report := opening ++ compiled.report ++ clashes.map (·.display)
    let stdout :=
      if args.format == .json then
        (buildReport compiled.results errors compiled.warnings).pretty 0 ++ "\n"
      else ""
    match written with
    | .failed e files =>
      { exit := 1
        stdout
        stderr := report ++ [writeFailure path e.message]
        output := some (path, code)
        files }
    | _ =>
      let remark :=
        match written with
        | .withheld =>
          [warning "Output not written because of errors; use --continue-on-error to force it"]
        | .upToDate => [path ++ " is up to date"]
        | _ => []
      let outputBytes :=
        match written with
        | .upToDate | .done _ => code.utf8ByteSize
        | _ => 0
      let found := s!"{paths.length} {fileWord paths.length}"
      let total := compiled.components.length
      let summary :=
        if 0 < errors then s!"✗ {errors} error(s) in {found} ({total} components)"
        else
          s!"✓ {found} compiled ({total} components, {compiled.sourceBytes} -> {outputBytes} bytes)"
      { exit := if 0 < errors then 1 else 0
        stdout
        stderr := report ++ remark ++ [summary]
        elapsed := some (" in ", "s")
        output :=
          match written with
          | .done _ => some (path, code)
          | _ => none
        files :=
          match written with
          | .done files => files
          | _ => place.files }

def runCheck (tools : Tools) (place : Workplace) (args : CheckArgs) : Outcome :=
  let (config, configWarnings) := loadConfig tools place args.config
  let options := args.options config
  let patterns := resolvePatterns args.patterns config.build.sources
  let (paths, missing) := collectFiles tools place.files patterns
  let opening := configWarnings ++ missingWarnings missing
  if paths.isEmpty then
    { exit := 1, stderr := opening ++ [nothingFound], files := place.files }
  else
    let compiled := compileFiles place.files options paths
    let errors := compiled.errors
    let warnings := compiled.warnings
    let summary :=
      if 0 < errors then s!"✗ {errors} error(s), {warnings} warning(s) in {paths.length} files"
      else s!"✓ No errors in {paths.length} files, {warnings} warning(s)"
    { exit := if 0 < errors then 1 else 0
      stdout :=
        if args.json then
          (checkReport compiled.results errors warnings paths.length).pretty 0 ++ "\n"
        else ""
      stderr := opening ++ (if args.json || args.quiet then [] else compiled.report) ++ [summary]
      elapsed := some (" (", "s)")
      files := place.files }

/-- What there is to ask for. -/
def usage : String :=
  "Compile component templates into rendering routines\n\n"
    ++ "Usage: sprig [OPTIONS] [build|check|help] [PATTERNS]...\n"

/-- Runs a command line. -/
def run (tools : Tools) (place : Workplace) (args : List String) : Outcome :=
  match parseArguments args with
  | .error .information => { exit := 0, stdout := usage, files := place.files }
  | .error .usageError => { exit := 2, stderr := [usage], files := place.files }
  | .ok (.build args) => runBuild tools place args
  | .ok (.check args) => runCheck tools place args

end Stencil.Cli
