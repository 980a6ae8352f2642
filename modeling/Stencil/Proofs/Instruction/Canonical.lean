/-
Coalescing as a canonical form. A body is flattened to the sequence of what it does, symbol by
symbol: a text to its characters, a block to its header and the flattening of its body. How the
characters are cut into texts is lost.

`coalesce_canonical`: coalescing keeps the flattening, makes no body longer, and gives two bodies the
same result exactly if they have the same flattening, so that every flattening is that of one normal
body only. The reason is that a coalesced body can be rebuilt from the flattening alone
(`rebuild_flatten`).
-/
import Stencil.Proofs.Instruction.Normal

namespace Stencil

/-- One step of what a body does. -/
inductive Symbol where
  | char (c : Char)
  | expression (expr : String) (escape : Bool)
  | block (header : Header) (body : List Symbol)
  | call (name args : String)

namespace Instructions

mutual

def flattenOne : Instruction → List Symbol
  | .literal text => text.toList.map .char
  | .expression expr escape => [.expression expr escape]
  | .control header body => [.block header (flatten body)]
  | .call name args => [.call name args]

/-- A body symbol by symbol. -/
def flatten : Instructions → List Symbol
  | [] => []
  | i :: is => flattenOne i ++ flatten is

end

mutual

/-- The body of a symbol and of what `rest` was rebuilt from. -/
def rebuildOne : Symbol → Instructions → Instructions
  | .char c, rest => consLiteral (String.singleton c) rest
  | .expression expr escape, rest => .expression expr escape :: rest
  | .block header body, rest => .control header (rebuild body) :: rest
  | .call name args, rest => .call name args :: rest

/-- A body with this flattening, its characters in as few texts as possible. -/
def rebuild : List Symbol → Instructions
  | [] => []
  | x :: xs => rebuildOne x (rebuild xs)

end

/-! ## Coalescing is rebuilding -/

theorem rebuild_chars (cs : List Char) (xs : List Symbol) :
    rebuild (cs.map .char ++ xs) = consLiteral (String.ofList cs) (rebuild xs) := by
  induction cs with
  | nil => simp [consLiteral]
  | cons c cs ih =>
    rw [List.map_cons, List.cons_append, rebuild, rebuildOne, ih, String.ofList_cons,
      consLiteral_append]

/-- **A coalesced body can be told from the flattening alone.** -/
theorem rebuild_flatten (body : Instructions) : rebuild body.flatten = body.coalesce := by
  cases body with
  | nil => rfl
  | cons i is =>
    have his := rebuild_flatten is
    cases i with
    | literal text =>
      rw [flatten, flattenOne, rebuild_chars, his, String.ofList_toList, coalesce_literal]
    | control header body =>
      have hbody := rebuild_flatten body
      simp [flatten, flattenOne, rebuild, rebuildOne, hbody, his]
    | expression | call =>
      simp [flatten, flattenOne, rebuild, rebuildOne, his]

/-! ## What coalescing keeps -/

theorem flatten_consLiteral (text : String) (body : Instructions) :
    (consLiteral text body).flatten = text.toList.map .char ++ body.flatten := by
  by_cases htext : text = ""
  · simp [htext, consLiteral]
  · cases body with
    | nil => simp [consLiteral, htext, flatten, flattenOne]
    | cons i is => cases i <;> simp [consLiteral, htext, flatten, flattenOne]

theorem flatten_coalesce (body : Instructions) : body.coalesce.flatten = body.flatten := by
  cases body with
  | nil => rfl
  | cons i is =>
    have his := flatten_coalesce is
    cases i with
    | literal text =>
      rw [coalesce_literal, flatten_consLiteral, his]
      rfl
    | control header body =>
      have hbody := flatten_coalesce body
      simp [flatten, flattenOne, hbody, his]
    | expression | call => simp [flatten, flattenOne, his]

theorem coalesce_eq_coalesce_iff {s t : Instructions} :
    s.coalesce = t.coalesce ↔ s.flatten = t.flatten := by
  constructor
  · intro h
    rw [← flatten_coalesce s, h, flatten_coalesce]
  · intro h
    rw [← rebuild_flatten s, h, rebuild_flatten]

/-! ## The number of instructions -/

@[simp] theorem count_nil : count [] = 0 := rfl

@[simp] theorem count_cons (i : Instruction) (is : Instructions) :
    count (i :: is) = (walkOne i).length + count is := by
  simp [count, walk]

@[simp] theorem length_walkOne_control (header : Header) (body : Instructions) :
    (walkOne (.control header body)).length = count body + 1 := rfl

theorem count_consLiteral_le (text : String) (body : Instructions) :
    (consLiteral text body).count ≤ body.count + 1 := by
  unfold consLiteral
  split
  · exact Nat.le_succ _
  · split
    · simp [walkOne]
    · simp [walkOne, Nat.add_comm]

theorem count_coalesce_le (body : Instructions) : body.coalesce.count ≤ body.count := by
  cases body with
  | nil => exact Nat.le_refl 0
  | cons i is =>
    have his := count_coalesce_le is
    cases i with
    | literal text =>
      have hcons := count_consLiteral_le text (coalesce is)
      simp only [coalesce_literal, count_cons, walkOne, List.length_singleton]
      omega
    | control header body =>
      have hbody := count_coalesce_le body
      simp only [coalesce_control, count_cons, length_walkOne_control]
      omega
    | expression | call =>
      simp only [coalesce_expression, coalesce_call, count_cons]
      omega

/-- **Coalescing computes the canonical form**: the one normal body with the same flattening. -/
theorem coalesce_canonical (s t : Instructions) :
    s.coalesce.flatten = s.flatten ∧ s.coalesce.Normal ∧ s.coalesce.count ≤ s.count ∧
      (s.coalesce = t.coalesce ↔ s.flatten = t.flatten) ∧
      (t.Normal ∧ t.flatten = s.flatten ↔ t = s.coalesce) ∧
      s.coalesce.coalesce = s.coalesce := by
  refine ⟨flatten_coalesce s, normal_coalesce s, count_coalesce_le s, coalesce_eq_coalesce_iff,
    ⟨fun ⟨hnormal, hflat⟩ => ?_, ?_⟩, coalesce_of_normal _ (normal_coalesce s)⟩
  · rw [← coalesce_of_normal t hnormal]
    exact coalesce_eq_coalesce_iff.mpr hflat
  · rintro rfl
    exact ⟨normal_coalesce s, flatten_coalesce s⟩

end Instructions

end Stencil
