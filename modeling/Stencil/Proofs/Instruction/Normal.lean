/-
The normal form of a body: at no depth an empty text, and at no depth two texts side by side.
Coalescing reaches it (`normal_coalesce`) and leaves a body that has it as it is
(`coalesce_of_normal`).
-/
import Stencil.Proofs.Instruction.Coalescing

namespace Stencil.Instructions

/-- The instruction is not a text that another text follows. -/
def Apart : Instruction → Instructions → Prop
  | .literal _, .literal _ :: _ => False
  | _, _ => True

mutual

/-- No empty text, and a normal body in a block. -/
def NormalOne : Instruction → Prop
  | .literal text => text ≠ ""
  | .control _ body => Normal body
  | _ => True

/-- At no depth an empty text or two adjacent texts. -/
def Normal : Instructions → Prop
  | [] => True
  | i :: is => NormalOne i ∧ Apart i is ∧ Normal is

end

/-- At no depth of a normal body is a text empty. -/
theorem Normal.ne_empty : ∀ {body : Instructions}, body.Normal → ∀ {text : String},
    .literal text ∈ body.walk → text ≠ ""
  | .literal _ :: _, ⟨hfirst, _, hrest⟩, text, hmem => by
    simp only [walk, walkOne, List.cons_append, List.nil_append, List.mem_cons,
      Instruction.literal.injEq] at hmem
    rcases hmem with rfl | hmem
    · exact hfirst
    · exact Normal.ne_empty hrest hmem
  | .control _ body :: _, ⟨hbody, _, hrest⟩, text, hmem => by
    simp only [walk, walkOne, List.cons_append, List.mem_cons, List.mem_append, reduceCtorEq,
      false_or] at hmem
    have hbody : Normal body := hbody
    rcases hmem with hmem | hmem
    · exact Normal.ne_empty hbody hmem
    · exact Normal.ne_empty hrest hmem
  | .expression _ _ :: _, ⟨_, _, hrest⟩, text, hmem
  | .call _ _ :: _, ⟨_, _, hrest⟩, text, hmem => by
    simp only [walk, walkOne, List.cons_append, List.nil_append, List.mem_cons, reduceCtorEq,
      false_or] at hmem
    exact Normal.ne_empty hrest hmem

theorem consLiteral_of_apart {text : String} {body : Instructions} (htext : text ≠ "")
    (h : Apart (.literal text) body) : consLiteral text body = .literal text :: body := by
  unfold consLiteral
  rw [if_neg (by simpa using htext)]
  split
  · exact absurd h (by simp [Apart])
  · rfl

theorem normal_consLiteral {body : Instructions} (h : body.Normal) (text : String) :
    (consLiteral text body).Normal := by
  unfold consLiteral
  split
  · exact h
  · next htext =>
    have hne : text ≠ "" := by simpa using htext
    split
    · next next rest =>
      simp only [Normal, NormalOne] at h ⊢
      refine ⟨fun he => hne ?_, ?_, h.2.2⟩
      · exact (String.append_eq_empty_iff.mp he).1
      · cases rest with
        | nil => trivial
        | cons j rest => cases j <;> simp_all [Apart]
    · next hbody =>
      refine ⟨hne, ?_, h⟩
      cases body with
      | nil => trivial
      | cons j rest =>
        cases j with
        | literal t => exact absurd rfl (hbody t rest)
        | expression | control | call => trivial

/-- **A coalesced body is normal.** -/
theorem normal_coalesce (body : Instructions) : body.coalesce.Normal := by
  cases body with
  | nil => trivial
  | cons i is =>
    have his := normal_coalesce is
    cases i with
    | literal text =>
      rw [coalesce_literal]
      exact normal_consLiteral his text
    | control header body =>
      rw [coalesce_control]
      exact ⟨normal_coalesce body, trivial, his⟩
    | expression expr escape =>
      rw [coalesce_expression]
      exact ⟨trivial, trivial, his⟩
    | call name args =>
      rw [coalesce_call]
      exact ⟨trivial, trivial, his⟩

/-- **A normal body coalesces to itself.** -/
theorem coalesce_of_normal (body : Instructions) (h : body.Normal) : body.coalesce = body := by
  cases body with
  | nil => rfl
  | cons i is =>
    obtain ⟨hfirst, hapart, hrest⟩ := h
    have his := coalesce_of_normal is hrest
    cases i with
    | literal text => rw [coalesce_literal, his, consLiteral_of_apart hfirst hapart]
    | control header body => rw [coalesce_control, his, coalesce_of_normal body hfirst]
    | expression expr escape => rw [coalesce_expression, his]
    | call name args => rw [coalesce_call, his]

end Stencil.Instructions
