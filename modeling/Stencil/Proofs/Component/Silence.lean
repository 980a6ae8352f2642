/-
When lowering reports nothing. A line is accepted when it passes the check of its kind, and an
outline is lowered in silence just when every line that lowering looks at is accepted
(`lower_silent_iff`). It looks at every line but those below a comment and those below an embedded
expression: the former are part of the comment, the latter are dropped without a word, although
lines below a call, which are dropped too, are warned about (`embedding_drops_lines`).
-/
import Stencil.Proofs.Component.Accounting
import Stencil.Proofs.LineKind.Forms
import Stencil.Proofs.Text.Trimmed

namespace Stencil

open Text

/-! ## Clauses of loops -/

/-- The clause has the form `<var> in <expr>`, with something for both. -/
def IsLoopClause (cs : List Char) : Prop :=
  ∃ var expr, cs = var ++ ' ' :: 'i' :: 'n' :: ' ' :: expr ∧ allBlank var = false ∧
    allBlank expr = false

/-- A text is cut no later than at any ` in ` that it holds. -/
theorem cutIn_shortest (var expr : List Char) : ∃ before after,
    cutIn (var ++ ' ' :: 'i' :: 'n' :: ' ' :: expr) = some (before, after) ∧
      before.length ≤ var.length := by
  induction var with
  | nil => exact ⟨[], expr, rfl, Nat.le_refl _⟩
  | cons c var ih =>
    obtain ⟨before, after, hcut, hlength⟩ := ih
    rw [List.cons_append]
    unfold cutIn
    split
    · next heq => cases heq
    · exact ⟨[], _, rfl, Nat.zero_le _⟩
    · next heq =>
      cases heq
      rw [hcut]
      exact ⟨c :: before, after, rfl, Nat.succ_le_succ hlength⟩

theorem suffix_of_cutIn (var expr : List Char) : ∃ before after,
    cutIn (var ++ ' ' :: 'i' :: 'n' :: ' ' :: expr) = some (before, after) ∧ expr <:+ after := by
  obtain ⟨before, after, hcut, hlength⟩ := cutIn_shortest var expr
  have hparts := cutIn_eq_some hcut
  have hexpr : expr <:+ var ++ ' ' :: 'i' :: 'n' :: ' ' :: expr := ⟨var ++ " in ".toList, by simp⟩
  have hafter : after <:+ var ++ ' ' :: 'i' :: 'n' :: ' ' :: expr :=
    ⟨before ++ " in ".toList, by rw [hparts]; simp⟩
  refine ⟨before, after, hcut, List.suffix_of_suffix_length_le hexpr hafter ?_⟩
  have := congrArg List.length hparts
  simp only [List.length_append, List.length_cons] at this
  omega

theorem isLoopClause_iff {clause : String} (h : Trimmed clause.toList) :
    (∃ header, Header.ofClause clause = .ok header) ↔ IsLoopClause clause.toList := by
  constructor
  · rintro ⟨header, hheader⟩
    obtain ⟨before, after, hparts, hbefore, hafter, -⟩ := Header.ofClause_eq_ok hheader
    exact ⟨before, after, hparts, hbefore, hafter⟩
  · rintro ⟨var, expr, hclause, -, hexpr⟩
    obtain ⟨before, after, hcut, hsuffix⟩ := suffix_of_cutIn var expr
    rw [← hclause] at hcut
    have hparts := cutIn_eq_some hcut
    -- The text may be cut earlier than `var` ends, but not at its very start, which is no blank.
    have hbefore : allBlank before = false := by
      cases before with
      | nil => exact absurd (h.head ' ' (by rw [hparts]; rfl)) (by decide)
      | cons c before =>
        rw [allBlank, List.all_cons, h.head c (by rw [hparts]; rfl), Bool.false_and]
    have hafter : allBlank after = false := by
      by_contra hblank
      have := allBlank_of_suffix hsuffix (by simpa using hblank)
      rw [hexpr] at this
      cases this
    simp only [Header.ofClause, hcut, hbefore, hafter, Bool.or_self, Bool.false_eq_true, if_false]
    exact ⟨_, rfl⟩

/-! ## Steps without a report -/

namespace Lowered

variable {α β : Type} {x : Lowered α} {f : α → Lowered β}

theorem silent_iff : x.diagnostics = [] ↔ x.warnings = [] ∧ ∃ a, x.result = .ok a := by
  unfold diagnostics
  cases x.result <;> simp

theorem silent_bind : (x >>= f).diagnostics = [] ↔
    x.diagnostics = [] ∧ ∃ a, x.result = .ok a ∧ (f a).diagnostics = [] := by
  cases hresult : x.result with
  | error d => simp [diagnostics_bind_of_error hresult, diagnostics_of_error hresult]
  | ok a => simp [diagnostics_bind_of_ok hresult, diagnostics_of_ok hresult]

/-- Steps of which the second reports or not whatever the first gives. -/
theorem silent_bind_iff {Q : Prop} (hf : ∀ a, (f a).diagnostics = [] ↔ Q) :
    (x >>= f).diagnostics = [] ↔ x.diagnostics = [] ∧ Q := by
  rw [silent_bind]
  refine and_congr_right fun hx => ?_
  obtain ⟨-, a, ha⟩ := silent_iff.mp hx
  simp only [hf, ha, Except.ok.injEq, exists_eq_left']

theorem silent_bind_ok (g : α → β) :
    (x >>= fun a => Lowered.ok (g a)).diagnostics = [] ↔ x.diagnostics = [] :=
  (silent_bind_iff fun _ => iff_of_true rfl trivial).trans (and_iff_left trivial)

theorem silent_read {line : Line} {x : Except Fault α} :
    (Lowered.read line x).diagnostics = [] ↔ ∃ a, x = .ok a := by
  cases x <;> simp [Lowered.read, Lowered.ok, Lowered.fail, diagnostics]

theorem silent_warn {line : Line} {ws : List Warning} :
    (Lowered.warn line ws).diagnostics = [] ↔ ws = [] := by
  simp [Lowered.warn, diagnostics]

end Lowered

open Lowered

/-! ## Lines in a component's body -/

theorem ofEmbedded_iff {expr : String} :
    (∃ i, Instruction.ofEmbedded expr = .ok i) ↔ allBlank expr.toList = false := by
  unfold Instruction.ofEmbedded
  split <;> simp_all

/-- The check of a line in a component's body, by its kind. -/
def LineKind.Accepted : LineKind → Prop
  | component _ => False
  | control _ _ => True
  | each clause => IsLoopClause clause.toList
  | embed expr => allBlank expr.toList = false
  | element tag rest => ∃ e, Element.parse tag rest = .ok e
  | comment => True
  | call text => ∃ i, Instruction.ofCall text = .ok i

/-- The line passes its check, and has no lines below it if it is a call. -/
def Node.Accepted (n : Node) : Prop :=
  (LineKind.ofText n.line.text).Accepted ∧
    ∀ text, LineKind.ofText n.line.text = .call text → n.children = []

/-- One of the nodes, or a node below them such that no line around it hides what is below. -/
inductive Exposed (hides : LineKind → Bool) : List Node → Node → Prop
  | here {n : Node} {ns : List Node} : n ∈ ns → Exposed hides ns n
  | nested {m n : Node} {ns : List Node} : m ∈ ns → hides (LineKind.ofText m.line.text) = false →
      Exposed hides m.children n → Exposed hides ns n

section

variable {hides : LineKind → Bool} {P : Node → Prop}

theorem forall_exposed_nil : ∀ m, Exposed hides [] m → P m := by
  rintro m (⟨⟨⟩⟩ | ⟨⟨⟩⟩)

theorem forall_exposed_singleton {n : Node} : (∀ m, Exposed hides [n] m → P m) ↔
    P n ∧ (hides (LineKind.ofText n.line.text) = false →
      ∀ m, Exposed hides n.children m → P m) := by
  constructor
  · intro h
    have hn := List.mem_singleton_self n
    exact ⟨h n (.here hn), fun hshown m hm => h m (.nested hn hshown hm)⟩
  · rintro ⟨hself, hbelow⟩ m (hm | ⟨hl, hshown, hm⟩)
    · rw [List.mem_singleton.mp hm]
      exact hself
    · rw [List.mem_singleton.mp hl] at hshown hm
      exact hbelow hshown m hm

theorem forall_exposed_cons {n : Node} {ns : List Node} :
    (∀ m, Exposed hides (n :: ns) m → P m) ↔
      (∀ m, Exposed hides [n] m → P m) ∧ ∀ m, Exposed hides ns m → P m := by
  constructor
  · intro h
    constructor
    · rintro m (hm | ⟨hl, hshown, hm⟩)
      · exact h m (.here (List.mem_cons.mpr (.inl (List.mem_singleton.mp hm))))
      · exact h m (.nested (List.mem_cons.mpr (.inl (List.mem_singleton.mp hl))) hshown hm)
    · rintro m (hm | ⟨hl, hshown, hm⟩)
      · exact h m (.here (List.mem_cons_of_mem n hm))
      · exact h m (.nested (List.mem_cons_of_mem n hl) hshown hm)
  · rintro ⟨hfirst, hrest⟩ m (hm | ⟨hl, hshown, hm⟩)
    · rcases List.mem_cons.mp hm with rfl | hm
      · exact hfirst m (.here (List.mem_singleton_self m))
      · exact hrest m (.here hm)
    · rcases List.mem_cons.mp hl with rfl | hl
      · exact hfirst m (.nested (List.mem_singleton_self _) hshown hm)
      · exact hrest m (.nested hl hshown hm)

end

/-- The lines below which nothing is looked at. -/
def LineKind.hidesBelow : LineKind → Bool
  | comment => true
  | embed _ => true
  | _ => false

mutual

/-- **A line is lowered in silence when it and all exposed lines below it are accepted.** -/
theorem lowerNode_silent_iff (options : Options) : ∀ n : Node,
    (lowerNode options n).diagnostics = [] ↔
      ∀ m, Exposed LineKind.hidesBelow [n] m → m.Accepted
  | ⟨line, children⟩ => by
    have hchildren := lowerNodes_silent_iff options children
    rw [forall_exposed_singleton, ← hchildren]
    unfold Node.Accepted lowerNode
    dsimp only
    split
    · next hkind =>
      refine iff_of_true rfl ?_
      simp [hkind, LineKind.Accepted, LineKind.hidesBelow]
    · next hkind =>
      refine iff_of_false nofun ?_
      simp [hkind, LineKind.Accepted]
    · next hkind =>
      refine (silent_bind_ok _).trans ?_
      simp [hkind, LineKind.Accepted, LineKind.hidesBelow]
    · next clause hkind =>
      refine (silent_bind_iff fun _ => silent_bind_ok _).trans ?_
      rw [silent_read, isLoopClause_iff (LineKind.trimmed_of_each hkind)]
      simp [hkind, LineKind.Accepted, LineKind.hidesBelow]
    · next expr hkind =>
      refine (silent_bind_ok _).trans ?_
      rw [silent_read, ofEmbedded_iff]
      simp [hkind, LineKind.Accepted, LineKind.hidesBelow]
    · next tag rest hkind =>
      refine (silent_bind_iff fun _ => silent_bind_ok _).trans ?_
      rw [silent_read]
      simp [hkind, LineKind.Accepted, LineKind.hidesBelow]
    · next text hkind =>
      -- Without lines below it, there is nothing below it that could be reported about.
      have hnone : children = [] → (lowerNodes options children).diagnostics = [] := by
        rintro rfl
        rfl
      refine (silent_bind_iff fun _ => silent_bind_ok _).trans ?_
      rw [silent_read, silent_warn]
      simpa [hkind, LineKind.Accepted, LineKind.hidesBelow] using fun _ _ => hnone

theorem lowerNodes_silent_iff (options : Options) : ∀ ns : List Node,
    (lowerNodes options ns).diagnostics = [] ↔
      ∀ m, Exposed LineKind.hidesBelow ns m → m.Accepted
  | [] => iff_of_true rfl forall_exposed_nil
  | n :: ns => by
    have hn := lowerNode_silent_iff options n
    have hns := lowerNodes_silent_iff options ns
    rw [lowerNodes, forall_exposed_cons, ← hn, ← hns]
    exact silent_bind_iff fun _ => silent_bind_ok _

end

/-! ## Top-level lines -/

/-- A definition that can be read, without anything odd about it, and whose name the target
language takes. -/
def DefinitionAccepted (options : Options) (line : Line) : Prop :=
  ∃ text signature, LineKind.ofText line.text = .component text ∧
    Signature.parse text = .ok (signature, []) ∧
    (options.dialect.routineNames signature.name).isSome = true

theorem lowerComponent_silent_iff {options : Options} {line : Line} {text : String}
    {children : List Node} :
    (lowerComponent options line text children).diagnostics = [] ↔
      (∃ signature, Signature.parse text = .ok (signature, []) ∧
        (options.dialect.routineNames signature.name).isSome = true) ∧
      ∀ n, Exposed LineKind.hidesBelow children n → n.Accepted := by
  rw [← lowerNodes_silent_iff options children, lowerComponent, silent_bind, silent_read]
  constructor
  · rintro ⟨-, ⟨signature, warnings⟩, hread, hrest⟩
    obtain ⟨hwarnings, _, -, hrest⟩ := silent_bind.mp hrest
    have hparse := read_eq_ok.mp hread
    rw [silent_warn.mp hwarnings] at hparse
    split at hrest
    · cases hrest
    · next hname =>
      refine ⟨⟨signature, hparse, ?_⟩, (silent_bind_ok _).mp hrest⟩
      simpa [Option.isSome_iff_ne_none] using hname
  · rintro ⟨⟨signature, hparse, hname⟩, hchildren⟩
    refine ⟨⟨_, hparse⟩, (signature, []), read_eq_ok.mpr hparse, ?_⟩
    refine silent_bind.mpr ⟨silent_warn.mpr rfl, (), rfl, ?_⟩
    rw [if_neg (by simpa [Option.isSome_iff_ne_none] using hname)]
    exact (silent_bind_ok _).mpr hchildren

theorem lowerTopLevel_silent_iff {options : Options} {node : Node} :
    (lowerTopLevel options node).diagnostics = [] ↔
      LineKind.ofText node.line.text = .comment ∨ DefinitionAccepted options node.line ∧
        ∀ n, Exposed LineKind.hidesBelow node.children n → n.Accepted := by
  obtain ⟨line, children⟩ := node
  unfold lowerTopLevel DefinitionAccepted
  dsimp only
  split
  · next hkind => exact iff_of_true rfl (.inl hkind)
  · next text hkind =>
    refine (silent_bind_ok _).trans ?_
    rw [lowerComponent_silent_iff]
    simp [hkind]
  · next hcomment hcomponent =>
    refine iff_of_false nofun ?_
    rintro (hkind | ⟨⟨text, _, hkind, -⟩, -⟩)
    · exact hcomment hkind
    · exact hcomponent text hkind

/-- **Lowering is silent when every line that it looks at is accepted.** -/
theorem lower_silent_iff (options : Options) (outline : Outline) :
    (lower options outline).2 = [] ↔
      ∀ top ∈ outline, LineKind.ofText top.line.text = .comment ∨
        DefinitionAccepted options top.line ∧
          ∀ n, Exposed LineKind.hidesBelow top.children n → n.Accepted := by
  have hsorted : (lower options outline).2 = [] ↔
      (outline.flatMap fun n => (lowerTopLevel options n).diagnostics) = [] := by
    rw [lower, List.flatMap_map, ← List.length_eq_zero_iff, List.length_mergeSort,
      List.length_eq_zero_iff]
  rw [hsorted, List.flatMap_eq_nil_iff]
  exact forall₂_congr fun _ _ => lowerTopLevel_silent_iff

/-- A malformed line below an embedded expression is dropped without a report. -/
theorem embedding_drops_lines :
    ∃ outline, Outline.parse .singleLevel "component A\n\tgo:x\n\t\teach bad\n" = .ok outline ∧
      (lower {} outline).2 = [] ∧
      ∃ top ∈ outline, LineKind.ofText top.line.text ≠ .comment ∧
        ∃ n, Exposed (· == .comment) top.children n ∧
          ¬ (LineKind.ofText n.line.text).Accepted := by
  have hparse : Outline.parse .singleLevel "component A\n\tgo:x\n\t\teach bad\n" =
      .ok [⟨⟨1, 0, "component A"⟩, [⟨⟨2, 1, "go:x"⟩, [⟨⟨3, 2, "each bad"⟩, []⟩]⟩]⟩] := rfl
  refine ⟨_, hparse, ?_, _, List.mem_singleton_self _, by decide +kernel, _,
    .nested (List.mem_singleton_self _) (by decide +kernel) (.here (List.mem_singleton_self _)), ?_⟩
  · rw [lower_diagnostics {} (ascending_of_parse hparse)]
    decide +kernel
  · have hkind : LineKind.ofText "each bad" = .each "bad" := by decide +kernel
    rw [hkind]
    rintro ⟨var, expr, hclause, -, -⟩
    have := congrArg List.length hclause
    simp only [List.length_append, List.length_cons] at this
    have hlength : "bad".toList.length = 3 := rfl
    omega

end Stencil
