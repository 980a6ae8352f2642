/-
What a build leaves behind. Errors in files, files that cannot be read and clashes decide together
whether the output is written and how the build exits.

Main statement: a build that withholds its output leaves every file as it was, and one that does
not leaves the bundle of all components at the output path, unless writing it fails. The build
exits with a failure when there are errors, whether or not they kept it from writing. All of it can
be read off what the workers have counted and found when they are done, whichever took its turn
when. Walking directories, digests and reading a configuration are left to any tools; that length
and digest tell an earlier output from the new one is assumed where it matters.
-/
import Stencil.Proofs.Cli.Identifiers
import Stencil.Proofs.Cli.PathOrder
import Stencil.Proofs.Cli.Workers
import Stencil.Proofs.Cli.Writing

namespace Stencil

/-- Length and digest tell an existing text from the generated one. -/
def Digest.Separates (digest : String → UInt64) (existing : Option String) (generated : String) :
    Prop :=
  ∀ old, existing = some old → old.utf8ByteSize = generated.utf8ByteSize →
    digest old = digest generated → old = generated

theorem Digest.Separates.eq_of_isUnchanged {digest : String → UInt64} {existing : Option String}
    {generated : String} (h : Separates digest existing generated)
    (hsame : isUnchanged digest existing generated) : existing = some generated := by
  cases existing with
  | none => simp [isUnchanged] at hsame
  | some old =>
    simp only [isUnchanged, Option.any_some, Bool.and_eq_true, beq_iff_eq] at hsame
    rw [h old rfl hsame.1 hsame.2]

namespace Cli

/-- The file is to be written, and that fails. -/
def WriteFails (tools : Tools) (fs : FileSystem) (path content : String) : Prop :=
  ∃ fault files, writeIfChanged tools fs path content = .failed fault files

theorem writeIfChanged_cases (tools : Tools) (fs : FileSystem) (path content : String) :
    writeIfChanged tools fs path content = .upToDate ∧
        Digest.isUnchanged tools.digest (fs.text? path) content ∨
      (∃ files, writeIfChanged tools fs path content = .done files ∧
        files.text path = .ok content) ∨
      WriteFails tools fs path content := by
  by_cases hsame : Digest.isUnchanged tools.digest (fs.text? path) content
  · exact .inl ⟨by rw [writeIfChanged, if_pos hsame], hsame⟩
  · cases hwrite : fs.write path content.toUTF8 with
    | mk files fault =>
      cases fault with
      | none =>
        have heq : writeIfChanged tools fs path content = .done files := by
          rw [writeIfChanged, if_neg hsame, hwrite]
        exact .inr (.inl ⟨files, heq, FileSystem.text_of_write hwrite⟩)
      | some e =>
        have heq : writeIfChanged tools fs path content = .failed e files := by
          rw [writeIfChanged, if_neg hsame, hwrite]
        exact .inr (.inr ⟨e, files, heq⟩)

/-- No code is asked for, or there are errors and the build is not to go on in spite of them. -/
def BuildArgs.Withholds (args : BuildArgs) (errors : Nat) : Prop :=
  args.format ≠ .code ∨ 0 < errors ∧ args.continueOnError = false

section

variable {tools : Tools} {args : BuildArgs} {errors : Nat}

theorem writeOutput_of_withholds (fs : FileSystem) (h : args.Withholds errors)
    (path code : String) :
    writeOutput tools fs args errors path code = .notAsked ∨
      writeOutput tools fs args errors path code = .withheld := by
  rw [writeOutput]
  rcases h with hformat | ⟨hpos, hstop⟩
  · left
    simp [hformat]
  · simp only [hpos, hstop]
    by_cases hformat : args.format = .code <;> simp [hformat]

theorem writeOutput_of_not_withholds {fs : FileSystem} (h : ¬args.Withholds errors)
    {path code : String} :
    writeOutput tools fs args errors path code = writeIfChanged tools fs path code := by
  simp only [BuildArgs.Withholds, not_or, not_not] at h
  rw [writeOutput]
  simp_all

end

namespace Workplace

variable (tools : Tools) (place : Workplace) (args : BuildArgs)

def config : Config := (loadConfig tools place args.config).1

def options : Options := args.options (place.config tools args)

def patterns : List String := resolvePatterns args.patterns (place.config tools args).build.sources

/-- The files that the patterns stand for, pattern by pattern. -/
def found : List String :=
  (place.patterns tools args).flatMap fun p => (templatesOf? tools place.files p).getD []

/-- The files that a build compiles. -/
def templates : List String := (collectFiles tools place.files (place.patterns tools args)).1

def compiled : Compiled :=
  compileFiles place.files (place.options tools args) (place.templates tools args)

def errors : Nat :=
  (place.compiled tools args).errors
    + (Clash.find (place.options tools args).dialect (place.compiled tools args).results).length

def code : String := bundle (place.options tools args) (place.compiled tools args).components

def outputPath : String :=
  args.outputPath (place.config tools args) (place.options tools args).target

/-- How the output of a build goes. -/
def written : Written :=
  writeOutput tools place.files args (place.errors tools args) (place.outputPath tools args)
    (place.code tools args)

variable {tools place args}

theorem runBuild_eq (hfound : place.templates tools args ≠ []) :
    (runBuild tools place args).files =
        (match place.written tools args with
        | .failed _ files | .done files => files
        | _ => place.files) ∧
      (runBuild tools place args).exit =
        match place.written tools args with
        | .failed _ _ => 1
        | _ => if 0 < place.errors tools args then 1 else 0 := by
  have hsome : ¬(place.templates tools args).isEmpty := by simpa using hfound
  cases hwritten : place.written tools args
  all_goals
    simp only [written, errors, code, outputPath, compiled, templates, patterns, options,
      config] at hsome hwritten ⊢
    simp only [runBuild]
    rw [if_neg hsome, hwritten]
    exact ⟨rfl, rfl⟩

/-- A build that withholds its output changes no file. -/
theorem files_of_withholds (hfound : place.templates tools args ≠ [])
    (h : args.Withholds (place.errors tools args)) :
    (runBuild tools place args).files = place.files := by
  rw [(runBuild_eq hfound).1, written]
  rcases writeOutput_of_withholds place.files h (place.outputPath tools args)
    (place.code tools args) with hwritten | hwritten <;> rw [hwritten]

/-- A build that writes its output leaves the bundle at the output path. -/
theorem text_of_not_withholds (hfound : place.templates tools args ≠ [])
    (h : ¬args.Withholds (place.errors tools args))
    (hwrite : ¬WriteFails tools place.files (place.outputPath tools args) (place.code tools args))
    (hseparates :
      Digest.Separates tools.digest (place.files.text? (place.outputPath tools args))
        (place.code tools args)) :
    (runBuild tools place args).files.text (place.outputPath tools args) =
      .ok (place.code tools args) := by
  rw [(runBuild_eq hfound).1, written, writeOutput_of_not_withholds h]
  rcases writeIfChanged_cases tools place.files (place.outputPath tools args)
    (place.code tools args) with ⟨heq, hsame⟩ | ⟨files, heq, htext⟩ | hfails
  · rw [heq]
    exact FileSystem.text?_eq_some.mp (hseparates.eq_of_isUnchanged hsame)
  · rw [heq]
    exact htext
  · exact absurd hfails hwrite

/-- Unless writing fails, the errors decide how a build exits. -/
theorem exit_eq (hfound : place.templates tools args ≠ [])
    (h : args.Withholds (place.errors tools args) ∨
      ¬WriteFails tools place.files (place.outputPath tools args) (place.code tools args)) :
    (runBuild tools place args).exit = if 0 < place.errors tools args then 1 else 0 := by
  rw [(runBuild_eq hfound).2]
  cases hwritten : place.written tools args with
  | failed fault files =>
    exfalso
    by_cases hwithholds : args.Withholds (place.errors tools args)
    · rcases writeOutput_of_withholds place.files hwithholds (place.outputPath tools args)
        (place.code tools args) with heq | heq <;> rw [written, heq] at hwritten <;> cases hwritten
    · rw [written, writeOutput_of_not_withholds hwithholds] at hwritten
      exact (h.resolve_left hwithholds) ⟨fault, files, hwritten⟩
  | notAsked | withheld | upToDate | done => rfl

theorem exit_of_writeFails (hfound : place.templates tools args ≠ [])
    (h : ¬args.Withholds (place.errors tools args))
    (hwrite : WriteFails tools place.files (place.outputPath tools args) (place.code tools args)) :
    (runBuild tools place args).exit = 1 := by
  obtain ⟨fault, files, heq⟩ := hwrite
  rw [(runBuild_eq hfound).2, written, writeOutput_of_not_withholds h, heq]

/-- Errors make a build fail, whether or not it writes its output. -/
theorem exit_of_pos (hfound : place.templates tools args ≠ [])
    (hpos : 0 < place.errors tools args) :
    (runBuild tools place args).exit = 1 := by
  by_cases h : args.Withholds (place.errors tools args) ∨
    ¬WriteFails tools place.files (place.outputPath tools args) (place.code tools args)
  · rw [exit_eq hfound h, if_pos hpos]
  · rw [not_or, not_not] at h
    exact exit_of_writeFails hfound h.1 h.2

end Workplace

namespace Pool

/-- The errors of a build after its files are compiled. -/
def errors (options : Options) (s : Pool) : Nat :=
  s.counters.errors + (Clash.find options.dialect s.results).length

/-- The bundle of all components, in the order of the files. -/
def code (options : Options) (s : Pool) : String := bundle options (bundled s.results)

variable {tools : Tools} {place : Workplace} {args : BuildArgs} {s : Pool}

theorem Reaches.errors_eq
    (h : Reaches place.files (place.options tools args) (place.templates tools args) s)
    (hdone : s.Done) :
    s.errors (place.options tools args) = place.errors tools args := by
  rw [errors, h.counters_eq hdone, (h.results_eq hdone).1]
  rfl

theorem Reaches.code_eq
    (h : Reaches place.files (place.options tools args) (place.templates tools args) s)
    (hdone : s.Done) :
    s.code (place.options tools args) = place.code tools args := by
  rw [code, (h.results_eq hdone).1]
  rfl

end Pool

/-- **A failing build leaves every file as it was, and the output that is written is the whole
bundle.** The files are taken in the order of their paths. Whichever worker takes its turn when,
they can finish, and when they have, errors and bundle are the same: errors withhold the output
unless the build is to go on, and make it fail in any case; without them only a failed write does. -/
theorem runBuild_outcome {tools : Tools} {place : Workplace} {args : BuildArgs}
    (hfound : place.templates tools args ≠ []) :
    Path.Lists (place.templates tools args) (place.found tools args) ∧
      (∃ s, Pool.Reaches place.files (place.options tools args) (place.templates tools args) s ∧
        s.Done) ∧
      ∀ s, Pool.Reaches place.files (place.options tools args) (place.templates tools args) s →
        s.Done →
        let compiled := place.compiled tools args
        let path := place.outputPath tools args
        let errors := s.errors (place.options tools args)
        let code := s.code (place.options tools args)
        let outcome := runBuild tools place args
        (s.results = compiled.results ∧ s.unreadable = compiled.unreadable) ∧
        errors = (compiled.diagnostics.filter (·.isError)).length + compiled.unreadable.length +
          (Clash.find (place.options tools args).dialect compiled.results).length ∧
        (args.Withholds errors → outcome.files = place.files) ∧
        (¬args.Withholds errors → ¬WriteFails tools place.files path code →
          Digest.Separates tools.digest (place.files.text? path) code →
          outcome.files.text path = .ok code) ∧
        (0 < errors → outcome.exit = 1) ∧
        (¬args.Withholds errors → WriteFails tools place.files path code → outcome.exit = 1) ∧
        (errors = 0 → (args.Withholds errors ∨ ¬WriteFails tools place.files path code) →
          outcome.exit = 0) := by
  refine ⟨Path.sortedOnce_lists _, Pool.exists_done _ _ _, ?_⟩
  intro s hreach hdone compiled path errors code outcome
  have herrors : errors = place.errors tools args := hreach.errors_eq hdone
  have hcode : code = place.code tools args := hreach.code_eq hdone
  refine ⟨hreach.results_eq hdone, herrors, ?_⟩
  rw [herrors, hcode]
  refine ⟨Workplace.files_of_withholds hfound, Workplace.text_of_not_withholds hfound,
    Workplace.exit_of_pos hfound, Workplace.exit_of_writeFails hfound, ?_⟩
  intro hzero h
  rw [Workplace.exit_eq hfound h, hzero]
  rfl

/-- A directory with a template, a file that is not text, and one that is no template. -/
def halfReadable : Workplace where
  directory := "/w"
  files :=
    { root := .dir [("w", .dir
        [("a.sprig", .file "component A\n\tp a\n".toUTF8), ("b.sprig", .file ⟨#[0xff]⟩),
          ("notes.txt", .file "a".toUTF8)])]
      here := ["w"] }

/-- Tools as they are in `halfReadable`: a walk comes by the three files, and there is neither a
configuration to read nor an earlier output to take a digest of. -/
def walkOnly : Tools where
  walk _ _ := ["./a.sprig", "./b.sprig", "./notes.txt"]
  digest _ := 0
  readConfig _ := none

def goOn : BuildArgs := { output := some "out.rs", continueOnError := true }

theorem templates_halfReadable :
    halfReadable.templates walkOnly goOn = ["./a.sprig", "./b.sprig"] := by
  have hfound : halfReadable.found walkOnly goOn = ["./a.sprig", "./b.sprig"] := by decide +kernel
  show Path.sortedOnce (halfReadable.found walkOnly goOn) = _
  rw [hfound, Path.sortedOnce, List.mergeSort_of_pairwise (by decide +kernel)]
  decide +kernel

theorem compiled_halfReadable :
    halfReadable.compiled walkOnly goOn =
      { results := [⟨"./a.sprig", compile {} "component A\n\tp a\n"⟩]
        unreadable := [("./b.sprig", .notText)]
        sourceBytes := 17 } := by
  rw [Workplace.compiled, templates_halfReadable]
  rfl

theorem not_writeFails_halfReadable (code : String) :
    ¬WriteFails walkOnly halfReadable.files "out.rs" code := by
  have hdone : writeIfChanged walkOnly halfReadable.files "out.rs" code =
      .done (halfReadable.files.write "out.rs" code.toUTF8).1 := rfl
  intro hfails
  obtain ⟨fault, files, heq⟩ := hfails
  rw [hdone] at heq
  cases heq

/-- The build fails and writes its output all the same. -/
theorem runBuild_outcome_halfReadable :
    halfReadable.templates walkOnly goOn = ["./a.sprig", "./b.sprig"] ∧
      (runBuild walkOnly halfReadable goOn).exit = 1 ∧
      (runBuild walkOnly halfReadable goOn).files.text "out.rs" =
        .ok (bundle {} (compile {} "component A\n\tp a\n").components) := by
  have hfound : halfReadable.templates walkOnly goOn ≠ [] := by
    rw [templates_halfReadable]
    simp
  obtain ⟨-, ⟨s, hreach, hdone⟩, hbuild⟩ := runBuild_outcome hfound
  obtain ⟨⟨hresults, -⟩, herrors, -, htext, hexit, -, -⟩ := hbuild s hreach hdone
  rw [compiled_halfReadable] at hresults herrors
  have hpos : 0 < s.errors (halfReadable.options walkOnly goOn) := by
    rw [herrors]
    show 0 < _ + 1 + _
    omega
  have hcode : s.code (halfReadable.options walkOnly goOn) =
      bundle {} (compile {} "component A\n\tp a\n").components := by
    rw [Pool.code, hresults, bundled, List.flatMap_singleton]
    rfl
  refine ⟨templates_halfReadable, hexit hpos, ?_⟩
  rw [← hcode]
  refine htext ?_ (not_writeFails_halfReadable _) ?_
  · simp [BuildArgs.Withholds, goOn]
  · intro old hold
    cases hold

end Cli

end Stencil
