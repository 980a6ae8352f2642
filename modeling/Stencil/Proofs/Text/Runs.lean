/-
Runs of characters. A text that consists of a run of one class and of a rest that does not start
with a character of that class is cut between the two, and what stands after the rest does not
change where the run ends.
-/
import Mathlib.Data.List.TakeWhile
import Stencil.Text.Blank
import Stencil.Text.Word

namespace Stencil.Text

variable {p : Char → Bool} {run rest : List Char}

theorem takeWhile_run (hrun : ∀ c ∈ run, p c = true) (hrest : ∀ c ∈ rest.head?, p c = false) :
    (run ++ rest).takeWhile p = run := by
  rw [List.takeWhile_append_of_pos hrun]
  cases rest with
  | nil => simp
  | cons c rest => simp [hrest c rfl]

theorem dropWhile_run (hrun : ∀ c ∈ run, p c = true) (hrest : ∀ c ∈ rest.head?, p c = false) :
    (run ++ rest).dropWhile p = rest := by
  rw [List.dropWhile_append_of_pos hrun]
  cases rest with
  | nil => rfl
  | cons c rest => simp [hrest c rfl]

/-- What a run cannot go on with does not change where the run ends. -/
theorem takeWhile_append_stop (h : ∀ c ∈ rest.head?, p c = false) (cs : List Char) :
    (cs ++ rest).takeWhile p = cs.takeWhile p := by
  induction cs with
  | nil => exact takeWhile_run (List.forall_mem_nil _) h
  | cons c cs ih => rw [List.cons_append, List.takeWhile_cons, List.takeWhile_cons, ih]

theorem dropWhile_append_stop (h : ∀ c ∈ rest.head?, p c = false) (cs : List Char) :
    (cs ++ rest).dropWhile p = cs.dropWhile p ++ rest := by
  induction cs with
  | nil => exact dropWhile_run (List.forall_mem_nil _) h
  | cons c cs ih =>
    rw [List.cons_append, List.dropWhile_cons, List.dropWhile_cons, ih]
    split <;> rfl

theorem head?_dropWhile_of_mem {cs : List Char} : ∀ c ∈ (cs.dropWhile p).head?, p c = false := by
  intro c hc
  have := List.head?_dropWhile_not p cs
  rw [Option.mem_def.mp hc] at this
  simpa using this

/-- Something follows a run, so the run ends there whatever comes later. -/
theorem head?_dropWhile_append {cs : List Char} (h : cs.dropWhile p ≠ []) (more : List Char) :
    ∀ c ∈ (cs.dropWhile p ++ more).head?, p c = false := by
  obtain ⟨d, ds, hd⟩ := List.exists_cons_of_ne_nil h
  have hhead : ∀ c ∈ (cs.dropWhile p).head?, p c = false := head?_dropWhile_of_mem
  rw [hd] at hhead ⊢
  exact hhead

theorem takeWhile_append_of_dropWhile {cs : List Char} (h : cs.dropWhile p ≠ [])
    (more : List Char) : (cs ++ more).takeWhile p = cs.takeWhile p := by
  have hrun : ∀ c ∈ cs.takeWhile p, p c = true := fun c hc => List.mem_takeWhile_imp hc
  have := takeWhile_run hrun (head?_dropWhile_append h more)
  rwa [← List.append_assoc, List.takeWhile_append_dropWhile] at this

theorem dropWhile_append_of_dropWhile {cs : List Char} (h : cs.dropWhile p ≠ [])
    (more : List Char) : (cs ++ more).dropWhile p = cs.dropWhile p ++ more := by
  have hrun : ∀ c ∈ cs.takeWhile p, p c = true := fun c hc => List.mem_takeWhile_imp hc
  have := dropWhile_run hrun (head?_dropWhile_append h more)
  rwa [← List.append_assoc, List.takeWhile_append_dropWhile] at this

end Stencil.Text
