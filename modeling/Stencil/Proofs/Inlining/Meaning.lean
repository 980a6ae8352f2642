/-
Optimizing keeps what a component means. A body is read in any monoid: texts by a homomorphism,
expressions and calls as any elements, a block as any function of its header and of what its body
means. Coalescing never changes the reading (`meaning_coalesce`). Inlining does not when a call
without arguments means what the body of the component it calls means, which is asked of the
components as they were before the first round and stays true from round to round.
-/
import Mathlib.Algebra.FreeMonoid.Basic
import Mathlib.Data.List.Forall2
import Stencil.Proofs.Inlining.Rounds
import Stencil.Proofs.Instruction.Coalescing

namespace Stencil

universe u

/-- A reading of instructions in a monoid. -/
structure Interpretation (M : Type u) [Monoid M] where
  literal : String → M
  literal_empty : literal "" = 1
  literal_append : ∀ s t, literal (s ++ t) = literal s * literal t
  expression : String → Bool → M
  call : String → String → M
  control : Header → M → M

variable {M : Type u} [Monoid M]

namespace Interpretation

mutual

/-- What an instruction means. -/
def meaningOne (I : Interpretation M) : Instruction → M
  | .literal text => I.literal text
  | .expression expr escape => I.expression expr escape
  | .control header body => I.control header (I.meaning body)
  | .call name args => I.call name args

/-- What a body means: the product of its instructions. -/
def meaning (I : Interpretation M) : Instructions → M
  | [] => 1
  | i :: is => I.meaningOne i * I.meaning is

end

/-- A call of a parameterless component without arguments means what the component's body means. -/
def Expands (I : Interpretation M) (components : List Component) : Prop :=
  ∀ c ∈ components, c.signature.isParameterless = true →
    ∀ args : String, Text.allBlank args.toList = true →
      I.call c.signature.name args = I.meaning c.body

/-- Two components that differ in nothing but in how they write one meaning. -/
structure Agrees (I : Interpretation M) (c d : Component) : Prop where
  signature : d.signature = c.signature
  line : d.line = c.line
  meaning : I.meaning d.body = I.meaning c.body

theorem Agrees.refl (I : Interpretation M) (c : Component) : I.Agrees c c := ⟨rfl, rfl, rfl⟩

theorem Agrees.trans {I : Interpretation M} {c d e : Component} (h : I.Agrees c d)
    (h' : I.Agrees d e) : I.Agrees c e :=
  ⟨h'.signature.trans h.signature, h'.line.trans h.line, h'.meaning.trans h.meaning⟩

/-! ## Coalescing -/

theorem meaning_consLiteral (I : Interpretation M) (text : String) (body : Instructions) :
    I.meaning (Instructions.consLiteral text body) = I.literal text * I.meaning body := by
  unfold Instructions.consLiteral
  split
  · next h =>
    rw [String.isEmpty_iff.mp h, I.literal_empty, one_mul]
  · split
    · simp only [meaning, meaningOne, I.literal_append, mul_assoc]
    · rfl

/-- **Coalescing keeps the meaning of a body.** -/
theorem meaning_coalesce (I : Interpretation M) (body : Instructions) :
    I.meaning body.coalesce = I.meaning body := by
  cases body with
  | nil => rfl
  | cons i is =>
    have his := meaning_coalesce I is
    cases i with
    | literal text =>
      rw [Instructions.coalesce_literal, meaning_consLiteral, his]
      rfl
    | control header body =>
      have hbody := meaning_coalesce I body
      simp only [Instructions.coalesce_control, meaning, meaningOne, hbody, his]
    | expression | call =>
      simp only [Instructions.coalesce_expression, Instructions.coalesce_call, meaning, his]

theorem agrees_coalesce (I : Interpretation M) (c : Component) :
    I.Agrees c { c with body := c.body.coalesce } :=
  ⟨rfl, rfl, I.meaning_coalesce c.body⟩

/-! ## Replacing calls -/

/-- The texts of a table are what the calls they replace mean. -/
def Justifies (I : Interpretation M) (table : Inlining.Table) : Prop :=
  ∀ name args text, table.callText? name args = some text → I.literal text = I.call name args

theorem justifies_tableOf {I : Interpretation M} {components : List Component}
    (h : I.Expands components) : I.Justifies (Inlining.tableOf components) := by
  intro name args text htext
  unfold Inlining.Table.callText? at htext
  split at htext
  · next hblank =>
    obtain ⟨c, hc, rfl, hconst⟩ := Inlining.mem_tableOf (Inlining.text?_eq_some_mem htext)
    obtain ⟨hp, hbody⟩ := Inlining.constantText?_eq_some hconst
    rw [h c hc hp args hblank]
    rcases hbody with ⟨hb, rfl⟩ | hb
    · simp only [hb, meaning, I.literal_empty]
    · simp only [hb, meaning, meaningOne, mul_one]
  · cases htext

mutual

theorem meaningOne_replaceOne {I : Interpretation M} {table : Inlining.Table}
    (h : I.Justifies table) :
    ∀ i : Instruction, I.meaningOne (Inlining.replaceOne table i) = I.meaningOne i
  | .call name args => by
    simp only [Inlining.replaceOne]
    split
    · next text htext => exact h name args text htext
    · rfl
  | .control header body => by
    simp only [Inlining.replaceOne, meaningOne, meaning_replace h body]
  | .literal _ | .expression _ _ => rfl

theorem meaning_replace {I : Interpretation M} {table : Inlining.Table} (h : I.Justifies table) :
    ∀ body : Instructions, I.meaning (Inlining.replace table body) = I.meaning body
  | [] => rfl
  | i :: is => by
    simp only [Inlining.replace, meaning, meaningOne_replaceOne h i, meaning_replace h is]

end

/-! ## Rounds -/

theorem agrees_inlineOnce {I : Interpretation M} {table : Inlining.Table} (h : I.Justifies table)
    (c : Component) : I.Agrees c (Inlining.inlineOnce table c) := by
  refine ⟨Inlining.inlineOnce_signature table c, Inlining.inlineOnce_line table c, ?_⟩
  rcases Inlining.inlineOnce_body table c with ⟨-, hb⟩ | hb
  · rw [hb]
  · rw [hb, meaning_coalesce, meaning_replace h]

/-- Components that agree one by one with components that expand expand too. -/
theorem Expands.of_agrees {I : Interpretation M} {components result : List Component}
    (h : I.Expands components) (ha : List.Forall₂ I.Agrees components result) :
    I.Expands result := by
  intro d hd hp args hargs
  obtain ⟨c, hc, hcd⟩ : ∃ c ∈ components, I.Agrees c d := by
    induction ha with
    | nil => simp at hd
    | cons hcd _ ih =>
      rcases List.mem_cons.mp hd with rfl | hd
      · exact ⟨_, List.mem_cons_self, hcd⟩
      · obtain ⟨c, hc, hcd'⟩ := ih (fun c hc => h c (List.mem_cons_of_mem _ hc)) hd
        exact ⟨c, List.mem_cons_of_mem _ hc, hcd'⟩
  rw [hcd.signature, hcd.meaning]
  exact h c hc (hcd.signature ▸ hp) args hargs

theorem forall₂_agrees_map {I : Interpretation M} (f : Component → Component)
    (h : ∀ c, I.Agrees c (f c)) (components : List Component) :
    List.Forall₂ I.Agrees components (components.map f) :=
  List.forall₂_map_right_iff.mpr (List.forall₂_same.mpr fun c _ => h c)

theorem forall₂_agrees_trans {I : Interpretation M} {as bs cs : List Component}
    (h : List.Forall₂ I.Agrees as bs) (h' : List.Forall₂ I.Agrees bs cs) :
    List.Forall₂ I.Agrees as cs := by
  induction h generalizing cs with
  | nil => exact h'
  | cons hab _ ih =>
    obtain ⟨c, cs, hbc, hrest, rfl⟩ := List.forall₂_cons_left_iff.mp h'
    exact .cons (hab.trans hbc) (ih hrest)

/-- A run of inlining keeps the meaning of every body. -/
theorem agrees_rounds {I : Interpretation M} {components : List Component}
    (h : I.Expands components) (n : Nat) :
    List.Forall₂ I.Agrees components (Inlining.rounds n components).1 := by
  refine Inlining.rounds_invariant (P := List.Forall₂ I.Agrees components) ?_ n ?_
  · intro cs hcs
    have hj := justifies_tableOf (h.of_agrees hcs)
    exact forall₂_agrees_trans hcs (forall₂_agrees_map _ (agrees_inlineOnce hj) cs)
  · exact List.forall₂_same.mpr fun c _ => Agrees.refl I c

end Interpretation

/-- **The optimizer keeps what every component means**, in any monoid in which a call of a
parameterless component means its body: the components stay in order, with their signatures and
lines, and each body means what the body it replaces means. -/
theorem optimize_meaning (I : Interpretation M) (options : Options) (components : List Component)
    (h : I.Expands components) :
    List.Forall₂ I.Agrees components (optimize options components) := by
  have hcoalesced : List.Forall₂ I.Agrees components
      (components.map fun c => { c with body := c.body.coalesce }) :=
    Interpretation.forall₂_agrees_map _ (Interpretation.agrees_coalesce I) components
  unfold optimize
  dsimp only
  split
  · exact Interpretation.forall₂_agrees_trans hcoalesced
      (Interpretation.agrees_rounds (h.of_agrees hcoalesced) _)
  · exact hcoalesced

/-- A constant component, and one that calls it inside a block and after it. -/
def logoPage : List Component :=
  [⟨⟨"Logo", []⟩, 1, [.literal "<b>", .literal "x"]⟩,
    ⟨⟨"Page", []⟩, 3, [.control (.raw "if a") [.call "Logo" " "], .call "Logo" ""]⟩]

/-- Reading a body as the text it writes, each block written twice. -/
def Interpretation.doubling : Interpretation (FreeMonoid Char) where
  literal text := FreeMonoid.ofList text.toList
  literal_empty := by rw [String.toList_empty, FreeMonoid.ofList_nil]
  literal_append s t := by rw [String.toList_append, FreeMonoid.ofList_append]
  expression expr _ := FreeMonoid.ofList expr.toList
  control _ body := body * body
  call name _ :=
    FreeMonoid.ofList (if name = "Logo" then "<b>x".toList else "<b>x<b>x<b>x".toList)

theorem optimize_meaning_logoPage :
    Interpretation.doubling.Expands logoPage ∧
      List.Forall₂ Interpretation.doubling.Agrees logoPage (optimize {} logoPage) := by
  have h : Interpretation.doubling.Expands logoPage := by
    intro c hc _ args _
    simp only [logoPage, List.mem_cons, List.not_mem_nil, or_false] at hc
    rcases hc with rfl | rfl <;> rfl
  exact ⟨h, optimize_meaning Interpretation.doubling {} logoPage h⟩

end Stencil
