/-
Escaping. A line that has no exclamation mark and does not start with `go:` gives no expression that
is written as it is (`Line.Gives.marked`). So a component below whose definition all lines are such
writes every value escaped, as it was lowered and as it is compiled: the optimizer keeps all
expressions and headers, in order and with their flags.
-/
import Mathlib.Data.List.Forall2
import Stencil.Proofs.Component.Provenance
import Stencil.Proofs.Instruction.Effects
import Stencil.Proofs.LineKind.Forms

namespace Stencil

/-- Nothing in the line asks for a value to be written as it is. -/
def Line.Unmarked (line : Line) : Prop :=
  '!' ∉ line.text.toList ∧ ¬"go:".toList <+: line.text.toList

instance (line : Line) : Decidable line.Unmarked := inferInstanceAs (Decidable (_ ∧ _))

/-- No line below the definition asks for a value to be written as it is. -/
def Node.Unmarked (node : Node) : Prop := ∀ line ∈ Outline.lines node.children, line.Unmarked

/-- At no depth is a value written as it is. -/
def Instructions.Escaped (body : Instructions) : Prop := ∀ expr, .expression expr false ∉ body.walk

theorem Instructions.escaped_iff {body : Instructions} :
    body.Escaped ↔ ∀ expr, .expression expr false ∉ body.effects :=
  forall_congr' fun _ => not_congr mem_effects_expression.symm

/-- A line that gives an unescaped expression has a mark. -/
theorem Line.Gives.marked {line : Line} {expr : String} (h : line.Gives (.expression expr false)) :
    ¬line.Unmarked := by
  intro ⟨hmark, hembed⟩
  cases h with
  | embed hkind _ =>
    rw [LineKind.text_of_embed hkind] at hembed
    exact hembed ⟨_, rfl⟩
  | element hkind he hholds =>
    have hread := (Element.parse_readFrom he).of_holds hholds
    exact hmark (LineKind.subset_of_element hkind (hread.marked rfl))
  | call _ hi =>
    obtain ⟨name, args, hcall⟩ := Instruction.ofCall_eq_ok hi
    cases hcall

/-- The lines of an outline that define a component without fault. -/
def definitions (options : Options) (outline : Outline) : List Node :=
  outline.filter fun node => (lowerTopLevel options node).component?.isSome

/-- Each of these lines, in order, makes one of the components. -/
theorem forall₂_definitions (options : Options) (outline : Outline) :
    List.Forall₂ (fun node c => (lowerTopLevel options node).component? = some c)
      (definitions options outline) (lower options outline).1 := by
  simp only [lower, definitions, List.filterMap_map]
  induction outline with
  | nil => exact .nil
  | cons node outline ih =>
    cases hnode : (lowerTopLevel options node).component? with
    | none => simpa [hnode, Function.comp_def] using ih
    | some c => simpa [hnode, Function.comp_def] using ih

theorem escaped_of_unmarked {options : Options} {node : Node} {c : Component}
    (hc : (lowerTopLevel options node).component? = some c) (h : node.Unmarked) :
    c.body.Escaped := by
  intro expr hexpr
  obtain ⟨line, hline, hgives⟩ := gives_component hc _ hexpr
  exact hgives.marked (h line hline)

/-- What the optimizer keeps of a component. -/
def Component.outward (c : Component) : String × List Effect := (c.signature.name, c.body.effects)

theorem outward_optimize (options : Options) (components : List Component) :
    (optimize options components).map Component.outward = components.map Component.outward := by
  refine map_optimize _ (fun c => ?_) (fun table c => ?_) components
  · rw [Component.outward, Instructions.effects_coalesce]
    rfl
  · rw [Component.outward, Inlining.effects_inlineOnce, Inlining.inlineOnce_signature]
    rfl

/-- **Nothing is written unescaped unless a line asks for it.** Each definition is paired with the
component that it makes, as lowered and as compiled; and the optimizer leaves the expressions and
the block headers of any components exactly as they are. -/
theorem escaped_unless_marked {options : Options} {source : String} {outline : Outline}
    (h : Outline.parse options.dedent source = .ok outline) :
    List.Forall₂ (fun node c => (lowerTopLevel options node).component? = some c ∧
        (node.Unmarked → c.body.Escaped))
      (definitions options outline) (lower options outline).1 ∧
    List.Forall₂ (fun node c => (∃ d, (lowerTopLevel options node).component? = some d ∧
        c.name = d.signature.name ∧ c.instructions.effects = d.body.effects) ∧
        (node.Unmarked → c.instructions.Escaped))
      (definitions options outline) (compile options source).components ∧
    ∀ (options : Options) (components : List Component),
      (optimize options components).map (·.body.effects) = components.map (·.body.effects) := by
  have hpairs := forall₂_definitions options outline
  refine ⟨?_, ?_, fun _ => effects_optimize⟩
  · exact hpairs.imp fun node c hc => ⟨hc, escaped_of_unmarked hc⟩
  · -- The optimizer changes bodies, but not what is paired here: names and effects.
    have houtward : List.Forall₂
        (fun node view => ∃ d, (lowerTopLevel options node).component? = some d ∧ view = d.outward)
        (definitions options outline)
        ((optimize options (lower options outline).1).map Component.outward) := by
      rw [outward_optimize, List.forall₂_map_right_iff]
      exact hpairs.imp fun node c hc => ⟨c, hc, rfl⟩
    rw [components_compile h, List.forall₂_map_right_iff]
    refine (List.forall₂_map_right_iff.mp houtward).imp fun node c hc => ?_
    obtain ⟨d, hd, hview⟩ := hc
    have hname : c.signature.name = d.signature.name := congrArg Prod.fst hview
    have heffects : c.body.effects = d.body.effects := congrArg Prod.snd hview
    refine ⟨⟨d, hd, hname, heffects⟩, fun hunmarked => ?_⟩
    have hbody := Instructions.escaped_iff.mp (escaped_of_unmarked hd hunmarked)
    rw [← heffects] at hbody
    exact Instructions.escaped_iff.mpr hbody

/-- A component that escapes what it writes and calls one that does not. -/
def embeddingSource : String := "component A(x string)\n\tp= x\n\tB\ncomponent B\n\tgo: raw\n"

def escapingNode : Node :=
  ⟨⟨1, 0, "component A(x string)"⟩, [⟨⟨2, 1, "p= x"⟩, []⟩, ⟨⟨3, 1, "B"⟩, []⟩]⟩

def embeddingNode : Node := ⟨⟨4, 0, "component B"⟩, [⟨⟨5, 1, "go: raw"⟩, []⟩]⟩

theorem escaped_unless_marked_embedding :
    Outline.parse .singleLevel embeddingSource = .ok [escapingNode, embeddingNode] ∧
      escapingNode.Unmarked ∧ ¬embeddingNode.Unmarked ∧
      (∃ c others, (lower {} [escapingNode, embeddingNode]).1 = c :: others ∧ c.body.Escaped) ∧
      ∃ c others, (compile {} embeddingSource).components = c :: others ∧
        c.instructions.Escaped := by
  have hparse : Outline.parse ({} : Options).dedent embeddingSource =
      .ok [escapingNode, embeddingNode] := rfl
  have hdefinitions : definitions {} [escapingNode, embeddingNode] =
      [escapingNode, embeddingNode] := by with_unfolding_all rfl
  have hunmarked : escapingNode.Unmarked := by
    unfold Node.Unmarked
    decide +kernel
  have hmarked : ¬embeddingNode.Unmarked := by
    unfold Node.Unmarked
    decide +kernel
  obtain ⟨hlower, hcompile, -⟩ := escaped_unless_marked hparse
  rw [hdefinitions, List.forall₂_cons_left_iff] at hlower hcompile
  obtain ⟨c, others, hc, -, heq⟩ := hlower
  obtain ⟨d, more, hd, -, heq'⟩ := hcompile
  exact ⟨hparse, hunmarked, hmarked, ⟨c, others, heq, hc.2 hunmarked⟩,
    ⟨d, more, heq', hd.2 hunmarked⟩⟩

end Stencil
