/-
Lowering step by step. A step after a result that is there goes on with it; a sequence of steps has
a result when each of its steps has one. So a component that was lowered has a body that was
lowered from the lines below its definition (`component_of_definition`). What the readers of loop
clauses, embedded expressions and calls give is said here once.
-/
import Stencil.Compile
import Stencil.Proofs.Nesting.Cuts
import Stencil.Proofs.Text.Trimmed

namespace Stencil

open Text

theorem Lowered.ok_bind {α β : Type} (a : α) (f : α → Lowered β) : Lowered.ok a >>= f = f a := rfl

theorem Lowered.pure_eq_ok {α : Type} (a : α) : (pure a : Lowered α) = .ok a := rfl

theorem Lowered.bind_eq_ok {α β : Type} {x : Lowered α} {f : α → Lowered β} {b : β} :
    (x >>= f).result = .ok b ↔ ∃ a, x.result = .ok a ∧ (f a).result = .ok b := by
  change (Lowered.bind x f).result = .ok b ↔ _
  unfold Lowered.bind
  split
  · next a ha => simp [ha]
  · next d hd => simp [hd]

theorem Lowered.read_eq_ok {α : Type} {line : Line} {x : Except Fault α} {a : α} :
    (Lowered.read line x).result = .ok a ↔ x = .ok a := by
  cases x <;> simp [Lowered.read, Lowered.ok, Lowered.fail]

theorem cutIn_eq_some {cs before after : List Char} (h : cutIn cs = some (before, after)) :
    cs = before ++ ' ' :: 'i' :: 'n' :: ' ' :: after := by
  fun_induction cutIn cs generalizing before with
  | case1 => cases h
  | case2 cs =>
    cases h
    rfl
  | case3 c cs _ ih =>
    obtain ⟨⟨b, a⟩, hcut, heq⟩ := Option.map_eq_some_iff.mp h
    cases heq
    rw [ih hcut, List.cons_append]

theorem Header.ofClause_eq_ok {clause : String} {header : Header}
    (h : Header.ofClause clause = .ok header) : ∃ before after,
      clause.toList = before ++ ' ' :: 'i' :: 'n' :: ' ' :: after ∧ allBlank before = false ∧
      allBlank after = false ∧
      header = .each (String.ofList (trim before)) (String.ofList (trim after)) := by
  unfold Header.ofClause at h
  split at h
  · cases h
  · next before after hcut =>
    split at h
    · cases h
    · next hblank =>
      cases h
      simp only [Bool.or_eq_true, not_or, Bool.not_eq_true] at hblank
      exact ⟨before, after, cutIn_eq_some hcut, hblank.1, hblank.2, rfl⟩

theorem Instruction.ofEmbedded_eq_ok {expr : String} {i : Instruction}
    (h : Instruction.ofEmbedded expr = .ok i) : allBlank expr.toList = false ∧
      i = .expression (String.ofList (trim expr.toList)) false := by
  unfold Instruction.ofEmbedded at h
  split at h
  · cases h
  · next hblank =>
    cases h
    exact ⟨by simpa using hblank, rfl⟩

/-- A call is a name, up to the end of the text or to a parenthesis, with trimmed arguments. -/
theorem Instruction.ofCall_eq_call {text : String} {i : Instruction}
    (h : Instruction.ofCall text = .ok i) : ∃ args,
      i = .call (String.ofList ((trimEnd text.toList).takeWhile isIdentifierChar))
        (String.ofList (trim args)) ∧
      args ⊆ text.toList ∧
      ∀ c ∈ ((trimEnd text.toList).dropWhile isIdentifierChar).head?, c = '(' := by
  unfold Instruction.ofCall at h
  dsimp only at h
  split at h
  · next hrest =>
    cases h
    exact ⟨[], rfl, by simp, by simp [hrest]⟩
  · split at h
    · cases h
    · next group hgroup =>
      split at h
      · cases h
        refine ⟨group.before, rfl, fun c hc => ?_, fun c hc => ?_⟩
        · have hrest := Nesting.before_subset_of_closeGroup? hgroup hc
          exact (trimEnd_initial _).subset ((List.dropWhile_suffix _).subset hrest)
        · rw [Nesting.eq_of_closeGroup? hgroup] at hc
          cases hc
          rfl
      · cases h

theorem Instruction.ofCall_eq_ok {text : String} {i : Instruction}
    (h : Instruction.ofCall text = .ok i) : ∃ name args, i = .call name args := by
  obtain ⟨args, hi, -⟩ := Instruction.ofCall_eq_call h
  exact ⟨_, _, hi⟩

/-- A component has the signature and the line of its definition, under a name that its routines can
have, and the instructions of the lines below it. -/
theorem component_of_definition {options : Options} {node : Node} {c : Component}
    (h : (lowerTopLevel options node).component? = some c) : ∃ text warnings,
      LineKind.ofText node.line.text = .component text ∧
      Signature.parse text = .ok (c.signature, warnings) ∧
      (options.dialect.routineNames c.signature.name).isSome = true ∧
      c.line = node.line.number ∧ (lowerNodes options node.children).result = .ok c.body := by
  have hresult : (lowerTopLevel options node).result = .ok (some c) := by
    unfold Lowered.component? at h
    split at h
    · next hc => rw [hc, h]
    · cases h
  obtain ⟨line, children⟩ := node
  simp only [lowerTopLevel] at hresult
  split at hresult
  · cases hresult
  · next text hkind =>
    obtain ⟨component, hcomponent, heq⟩ := Lowered.bind_eq_ok.mp hresult
    cases heq
    unfold lowerComponent at hcomponent
    obtain ⟨⟨signature, warnings⟩, hsignature, hcomponent⟩ := Lowered.bind_eq_ok.mp hcomponent
    obtain ⟨_, -, hcomponent⟩ := Lowered.bind_eq_ok.mp hcomponent
    split at hcomponent
    · cases hcomponent
    · next hnames =>
      obtain ⟨body, hbody, heq⟩ := Lowered.bind_eq_ok.mp hcomponent
      cases heq
      refine ⟨text, warnings, hkind, Lowered.read_eq_ok.mp hsignature, ?_, rfl, hbody⟩
      simpa [Option.isSome_iff_ne_none] using hnames
  · cases hresult

theorem component_eq_some {options : Options} {node : Node} {c : Component}
    (h : (lowerTopLevel options node).component? = some c) :
    c.line = node.line.number ∧ (lowerNodes options node.children).result = .ok c.body := by
  obtain ⟨_, _, -, -, -, hline, hbody⟩ := component_of_definition h
  exact ⟨hline, hbody⟩

theorem mem_lower {options : Options} {outline : Outline} {c : Component} :
    c ∈ (lower options outline).1 ↔
      ∃ node ∈ outline, (lowerTopLevel options node).component? = some c := by
  simp [lower]

mutual

theorem lowerNode_congr {options options' : Options} (h : options.isVoidTag = options'.isVoidTag) :
    ∀ node : Node, lowerNode options node = lowerNode options' node
  | ⟨line, children⟩ => by
    simp only [lowerNode, lowerNodes_congr h children, h]

theorem lowerNodes_congr {options options' : Options} (h : options.isVoidTag = options'.isVoidTag) :
    ∀ nodes : List Node, lowerNodes options nodes = lowerNodes options' nodes
  | [] => by simp only [lowerNodes]
  | n :: ns => by simp only [lowerNodes, lowerNode_congr h n, lowerNodes_congr h ns]

end

/-- Lowering asks the options for the void tags and the language, and for nothing else. -/
theorem lower_congr {options options' : Options} (hvoid : options.isVoidTag = options'.isVoidTag)
    (htarget : options.target = options'.target) (hdialect : options.dialect = options'.dialect)
    (outline : Outline) : lower options outline = lower options' outline := by
  have htop : lowerTopLevel options = lowerTopLevel options' := by
    funext node
    simp only [lowerTopLevel, lowerComponent, lowerNodes_congr hvoid, htarget, hdialect]
  simp only [lower, htop]

/-- What is compiled is the optimized components of the outline, in order. -/
theorem components_compile {options : Options} {source : String} {outline : Outline}
    (h : Outline.parse options.dedent source = .ok outline) :
    (compile options source).components =
      (optimize options (lower options outline).1).map (·.emit options) := by
  simp only [compile, h]

end Stencil
