/-
Compiling files in parallel. A worker for each file reads and compiles it, then adds what it found
to counters that all workers share, one counter after the other. The workers take their turns in
any order.

A turn changes neither what becomes of a file nor the sum of what is counted and what is still to
be counted. So when all workers are done, the results are those of compiling the files one after
the other, in the order of the files, and the counters hold its totals.
-/
import Mathlib.Algebra.BigOperators.Group.List.Basic
import Mathlib.Logic.Relation
import Stencil.Cli.Run

namespace Stencil.Cli

open Relation

/-- What is counted while files compile. -/
@[ext]
structure Counters where
  components : Nat := 0
  errors : Nat := 0
  warnings : Nat := 0
  sourceBytes : Nat := 0

namespace Counters

instance : Zero Counters := ⟨{}⟩

instance : Add Counters where
  add c d := ⟨c.components + d.components, c.errors + d.errors, c.warnings + d.warnings,
    c.sourceBytes + d.sourceBytes⟩

instance : AddCommMonoid Counters where
  add_assoc a b c := by apply Counters.ext <;> exact Nat.add_assoc _ _ _
  zero_add a := by apply Counters.ext <;> exact Nat.zero_add _
  add_zero a := by apply Counters.ext <;> exact Nat.add_zero _
  add_comm a b := by apply Counters.ext <;> exact Nat.add_comm _ _
  nsmul := nsmulRec

theorem mk_add_mk (c e w b c' e' w' b' : Nat) :
    mk c e w b + mk c' e' w' b' = mk (c + c') (e + e') (w + w') (b + b') := rfl

end Counters

/-- What becomes of a file. -/
inductive FileOutcome where
  | compiled (file : FileResult) (size : Nat)
  | unreadable (path : String) (fault : FileFault)

def compileFile (fs : FileSystem) (options : Options) (path : String) : FileOutcome :=
  match fs.text path with
  | .ok source => .compiled ⟨path, compile options source⟩ source.utf8ByteSize
  | .error e => .unreadable path e

namespace FileOutcome

def result? : FileOutcome → Option FileResult
  | compiled file _ => some file
  | unreadable _ _ => none

def fault? : FileOutcome → Option (String × FileFault)
  | compiled _ _ => none
  | unreadable path fault => some (path, fault)

/-- What a worker adds to the counters, in this order. -/
def additions : FileOutcome → List Counters
  | compiled file size =>
    [{ components := file.output.components.length },
      { errors := (file.output.diagnostics.filter (·.isError)).length },
      { warnings := (file.output.diagnostics.filter (!·.isError)).length },
      { sourceBytes := size }]
  | unreadable _ _ => [{ errors := 1 }]

end FileOutcome

inductive Worker where
  /-- The file is not read yet. -/
  | waiting (path : String)
  | counting (outcome : FileOutcome) (todo : List Counters)

section Turns

variable (fs : FileSystem) (options : Options)

namespace Worker

/-- A turn of one worker, with what it adds to the counters. -/
inductive Step : Worker → Counters → Worker → Prop where
  | compile (path : String) :
    Step (waiting path) 0
      (counting (compileFile fs options path) (compileFile fs options path).additions)
  | count (outcome : FileOutcome) (c : Counters) (todo : List Counters) :
    Step (counting outcome (c :: todo)) c (counting outcome todo)

/-- What becomes of the worker's file. -/
def outcome : Worker → FileOutcome
  | waiting path => compileFile fs options path
  | counting outcome _ => outcome

/-- What the worker will still add to the counters. -/
def pending : Worker → Counters
  | waiting path => (compileFile fs options path).additions.sum
  | counting _ todo => todo.sum

def Done (w : Worker) : Prop := ∃ outcome, w = counting outcome []

/-- What became of the file of a worker that is done. -/
def outcome? : Worker → Option FileOutcome
  | counting outcome [] => some outcome
  | _ => none

variable {fs options} {w w' : Worker} {c : Counters}

theorem Step.outcome_eq (h : Step fs options w c w') :
    w'.outcome fs options = w.outcome fs options := by
  cases h <;> rfl

theorem Step.pending_eq (h : Step fs options w c w') :
    w.pending fs options = c + w'.pending fs options := by
  cases h with
  | compile path => rw [zero_add]; rfl
  | count outcome c todo => exact List.sum_cons

theorem Done.pending_eq (h : w.Done) : w.pending fs options = 0 := by
  obtain ⟨outcome, rfl⟩ := h
  exact List.sum_nil

theorem Done.outcome?_eq (h : w.Done) : w.outcome? = some (w.outcome fs options) := by
  obtain ⟨outcome, rfl⟩ := h
  rfl

end Worker

/-- Workers in the order of their files, and the counters they share. -/
structure Pool where
  workers : List Worker
  counters : Counters

namespace Pool

/-- Any of the workers takes its turn. -/
inductive Step : Pool → Pool → Prop where
  | turn {w w' : Worker} {c : Counters} (before after : List Worker) (counters : Counters)
    (h : Worker.Step fs options w c w') :
    Step ⟨before ++ w :: after, counters⟩ ⟨before ++ w' :: after, counters + c⟩

def start (paths : List String) : Pool := ⟨paths.map .waiting, 0⟩

/-- A state that the workers for some files can come to. -/
def Reaches (paths : List String) (s : Pool) : Prop :=
  ReflTransGen (Step fs options) (start paths) s

def Done (s : Pool) : Prop := ∀ w ∈ s.workers, w.Done

/-- What became of the files so far, in their order. -/
def outcomes (s : Pool) : List FileOutcome := s.workers.filterMap Worker.outcome?

def results (s : Pool) : List FileResult := s.outcomes.filterMap FileOutcome.result?

def unreadable (s : Pool) : List (String × FileFault) := s.outcomes.filterMap FileOutcome.fault?

/-- What is counted and what will be. -/
def total (s : Pool) : Counters :=
  s.counters + (s.workers.map (Worker.pending fs options)).sum

variable {fs options} {s t : Pool}

theorem Step.map_outcome (h : Step fs options s t) :
    t.workers.map (Worker.outcome fs options) = s.workers.map (Worker.outcome fs options) := by
  obtain ⟨before, after, counters, h⟩ := h
  simp only [List.map_append, List.map_cons, h.outcome_eq]

theorem Step.total_eq (h : Step fs options s t) : t.total fs options = s.total fs options := by
  obtain ⟨before, after, counters, h⟩ := h
  simp only [total, List.map_append, List.map_cons, List.sum_append, List.sum_cons, h.pending_eq]
  ac_rfl

theorem exists_done_counting (fs : FileSystem) (options : Options) (before after : List Worker)
    (outcome : FileOutcome) (todo : List Counters) (counters : Counters) :
    ∃ w' counters', ReflTransGen (Step fs options)
      ⟨before ++ .counting outcome todo :: after, counters⟩
      ⟨before ++ w' :: after, counters'⟩ ∧ w'.Done := by
  induction todo generalizing counters with
  | nil => exact ⟨_, counters, .refl, outcome, rfl⟩
  | cons c todo ih =>
    obtain ⟨w', counters', hrun, hdone⟩ := ih (counters + c)
    exact ⟨w', counters', .head (.turn before after counters (.count outcome c todo)) hrun, hdone⟩

/-- A worker can finish while the others wait. -/
theorem exists_done_worker (fs : FileSystem) (options : Options) (before after : List Worker)
    (w : Worker) (counters : Counters) :
    ∃ w' counters', ReflTransGen (Step fs options) ⟨before ++ w :: after, counters⟩
      ⟨before ++ w' :: after, counters'⟩ ∧ w'.Done := by
  cases w with
  | waiting path =>
    obtain ⟨w', counters', hrun, hdone⟩ := exists_done_counting fs options before after
      (compileFile fs options path) (compileFile fs options path).additions (counters + 0)
    exact ⟨w', counters', .head (.turn before after counters (.compile path)) hrun, hdone⟩
  | counting outcome todo => exact exists_done_counting fs options before after outcome todo counters

/-- However far the workers have come, they can finish. -/
theorem exists_done (fs : FileSystem) (options : Options) (s : Pool) :
    ∃ t, ReflTransGen (Step fs options) s t ∧ t.Done := by
  -- One after the other: those before have finished, and by induction so can those after.
  have hrest : ∀ (after before : List Worker) (counters : Counters), (∀ w ∈ before, w.Done) →
      ∃ t, ReflTransGen (Step fs options) ⟨before ++ after, counters⟩ t ∧ t.Done := by
    intro after
    induction after with
    | nil =>
      intro before counters hbefore
      exact ⟨_, .refl, by simpa [Done] using hbefore⟩
    | cons w after ih =>
      intro before counters hbefore
      obtain ⟨w', counters', hrun, hdone⟩ :=
        exists_done_worker fs options before after w counters
      obtain ⟨t, hrun', ht⟩ := ih (before ++ [w']) counters' (by simpa [or_imp, forall_and, hdone])
      exact ⟨t, hrun.trans (by simpa using hrun'), ht⟩
  exact hrest s.workers [] s.counters (by simp)

variable {paths : List String}

theorem Reaches.map_outcome (h : Reaches fs options paths s) :
    s.workers.map (Worker.outcome fs options) = paths.map (compileFile fs options) := by
  induction h with
  | refl => simp [start, Worker.outcome]
  | tail _ hstep ih => rw [hstep.map_outcome, ih]

theorem Reaches.total_eq (h : Reaches fs options paths s) :
    s.total fs options = (paths.map fun p => (compileFile fs options p).additions.sum).sum := by
  induction h with
  | refl =>
    rw [total, start, zero_add, List.map_map]
    rfl
  | tail _ hstep ih => rw [hstep.total_eq, ih]

end Pool

end Turns

section Totals

variable {fs : FileSystem} {path source : String} {fault : FileFault}

theorem compileFiles_cons_of_ok (h : fs.text path = .ok source) (options : Options)
    (paths : List String) :
    compileFiles fs options (path :: paths) =
      let rest := compileFiles fs options paths
      { results := ⟨path, compile options source⟩ :: rest.results
        unreadable := rest.unreadable
        sourceBytes := source.utf8ByteSize + rest.sourceBytes } := by
  have htext : fs.text? path = some source := by rw [FileSystem.text?, h]; rfl
  simp [compileFiles, h, htext, String.join_cons, String.utf8ByteSize_append]

theorem compileFiles_cons_of_error (h : fs.text path = .error fault) (options : Options)
    (paths : List String) :
    compileFiles fs options (path :: paths) =
      let rest := compileFiles fs options paths
      { rest with unreadable := (path, fault) :: rest.unreadable } := by
  have htext : fs.text? path = none := by rw [FileSystem.text?, h]; rfl
  simp [compileFiles, h, htext]

theorem compileFile_of_ok (h : fs.text path = .ok source) (options : Options) :
    compileFile fs options path =
      .compiled ⟨path, compile options source⟩ source.utf8ByteSize := by
  rw [compileFile, h]

theorem compileFile_of_error (h : fs.text path = .error fault) (options : Options) :
    compileFile fs options path = .unreadable path fault := by
  rw [compileFile, h]

end Totals

theorem filterMap_compileFile (fs : FileSystem) (options : Options) (paths : List String) :
    (paths.map (compileFile fs options)).filterMap FileOutcome.result? =
        (compileFiles fs options paths).results ∧
      (paths.map (compileFile fs options)).filterMap FileOutcome.fault? =
        (compileFiles fs options paths).unreadable := by
  induction paths with
  | nil => exact ⟨rfl, rfl⟩
  | cons path paths ih =>
    obtain ⟨hresults, hfaults⟩ := ih
    rw [List.map_cons]
    cases htext : fs.text path with
    | error e =>
      rw [compileFiles_cons_of_error htext, compileFile_of_error htext]
      exact ⟨hresults, congrArg (_ :: ·) hfaults⟩
    | ok source =>
      rw [compileFiles_cons_of_ok htext, compileFile_of_ok htext]
      exact ⟨congrArg (_ :: ·) hresults, hfaults⟩

/-- The totals of compiling files. -/
def Compiled.counters (c : Compiled) : Counters :=
  ⟨c.components.length, c.errors, c.warnings, c.sourceBytes⟩

theorem counters_compileFiles_cons (fs : FileSystem) (options : Options) (path : String)
    (paths : List String) :
    (compileFiles fs options (path :: paths)).counters =
      (compileFile fs options path).additions.sum + (compileFiles fs options paths).counters := by
  cases htext : fs.text path with
  | error e =>
    rw [compileFiles_cons_of_error htext, compileFile_of_error htext]
    simp [FileOutcome.additions, Compiled.counters, Compiled.components, Compiled.errors,
      Compiled.warnings, Compiled.diagnostics, Counters.mk_add_mk]
    omega
  | ok source =>
    rw [compileFiles_cons_of_ok htext, compileFile_of_ok htext]
    simp [FileOutcome.additions, Compiled.counters, Compiled.components, Compiled.errors,
      Compiled.warnings, Compiled.diagnostics, Counters.mk_add_mk]
    omega

theorem sum_additions (fs : FileSystem) (options : Options) (paths : List String) :
    (paths.map fun p => (compileFile fs options p).additions.sum).sum =
      (compileFiles fs options paths).counters := by
  induction paths with
  | nil => rfl
  | cons path paths ih => rw [List.map_cons, List.sum_cons, ih, counters_compileFiles_cons]

namespace Pool

variable {fs : FileSystem} {options : Options} {paths : List String} {s : Pool}

theorem Reaches.outcomes_eq (h : Reaches fs options paths s) (hdone : s.Done) :
    s.outcomes = paths.map (compileFile fs options) := by
  rw [← h.map_outcome, ← List.filterMap_eq_map]
  exact List.filterMap_congr fun w hw => (hdone w hw).outcome?_eq

/-- Whatever the order of turns, the results stand in the order of the files. -/
theorem Reaches.results_eq (h : Reaches fs options paths s) (hdone : s.Done) :
    s.results = (compileFiles fs options paths).results ∧
      s.unreadable = (compileFiles fs options paths).unreadable := by
  rw [results, unreadable, h.outcomes_eq hdone]
  exact filterMap_compileFile fs options paths

/-- Whatever the order of turns, the counters hold the totals. -/
theorem Reaches.counters_eq (h : Reaches fs options paths s) (hdone : s.Done) :
    s.counters = (compileFiles fs options paths).counters := by
  have hpending : (s.workers.map (Worker.pending fs options)).sum = 0 := by
    apply List.sum_eq_zero
    intro c hc
    obtain ⟨w, hw, rfl⟩ := List.mem_map.mp hc
    exact (hdone w hw).pending_eq
  rw [← sum_additions, ← h.total_eq, total, hpending, add_zero]

end Pool

end Stencil.Cli
