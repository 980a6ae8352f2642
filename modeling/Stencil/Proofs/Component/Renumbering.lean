/-
Lowering copies line numbers and never looks at them: under other numbers the same lines give the
same instructions, and the same diagnostics at those numbers (`lowerNode_renumber`). Only the order
of the diagnostics depends on numbers, and as long as these grow from line to line it does not
change (`lower_renumber`). Optimizing and writing components do not see the numbers either
(`optimize_renumber`).
-/
import Stencil.Proofs.Component.Accounting
import Stencil.Proofs.Inlining.Rounds
import Stencil.Proofs.Outline.Renumbering

namespace Stencil

/-- The diagnostic at another line number. -/
def Diagnostic.renumber (f : Nat → Nat) (d : Diagnostic) : Diagnostic := { d with line := f d.line }

/-- The component with its definition at another line number. -/
def Component.renumber (f : Nat → Nat) (c : Component) : Component := { c with line := f c.line }

variable (f : Nat → Nat)

namespace Lowered

variable {α β γ δ : Type}

/-- The outcome under other line numbers, with the result changed by `g`. -/
def renumber (g : α → β) (x : Lowered α) : Lowered β where
  warnings := x.warnings.map (Diagnostic.renumber f)
  result := (x.result.map g).mapError (Diagnostic.renumber f)

theorem renumber_read (line : Line) (x : Except Fault α) :
    (Lowered.read line x).renumber f id = .read (line.renumber f) x := by
  cases x <;> rfl

theorem renumber_warn (line : Line) (ws : List Warning) :
    (Lowered.warn line ws).renumber f id = .warn (line.renumber f) ws := by
  simp only [Lowered.warn, renumber, List.map_map]
  rfl

theorem renumber_bind {g : α → β} {h : γ → δ} {x : Lowered α} {k : α → Lowered γ}
    {k' : β → Lowered δ} (hk : ∀ a, k' (g a) = (k a).renumber f h) :
    x.renumber f g >>= k' = (x >>= k).renumber f h := by
  cases hresult : x.result with
  | error d =>
    have hrenumber : (x.renumber f g).result = .error (d.renumber f) := by
      simp only [renumber, hresult]
      rfl
    rw [bind_of_error hresult, bind_of_error hrenumber]
    rfl
  | ok a =>
    have hrenumber : (x.renumber f g).result = .ok (g a) := by
      simp only [renumber, hresult]
      rfl
    rw [bind_of_ok hresult, bind_of_ok hrenumber, hk a]
    simp only [renumber, List.map_append]

theorem diagnostics_renumber (g : α → β) (x : Lowered α) :
    (x.renumber f g).diagnostics = x.diagnostics.map (Diagnostic.renumber f) := by
  unfold diagnostics renumber
  cases x.result <;> simp [Except.map, Except.mapError]

theorem component?_renumber (x : Lowered (Option Component)) :
    (x.renumber f (Option.map (Component.renumber f))).component? =
      x.component?.map (Component.renumber f) := by
  unfold Lowered.component? Lowered.renumber
  cases x.result <;> rfl

end Lowered

open Lowered

/-! ## Lowering -/

mutual

/-- **A line under another number gives the same instructions**, and its diagnostics at that
number. -/
theorem lowerNode_renumber (options : Options) : ∀ node : Node,
    lowerNode options (node.renumber f) = (lowerNode options node).renumber f id
  | ⟨line, children⟩ => by
    have hchildren := lowerNodes_renumber options children
    have hlength : (Outline.renumber f children).length = children.length := by
      rw [Outline.renumber_eq_map, List.length_map]
    have hempty : (Outline.renumber f children).isEmpty = children.isEmpty := by
      rw [Outline.renumber_eq_map, List.isEmpty_map]
    have htext : (line.renumber f).text = line.text := rfl
    rw [Node.renumber]
    unfold lowerNode
    rw [htext, hchildren, hlength, hempty]
    split
    · rfl
    · rfl
    · exact renumber_bind f fun body => rfl
    · rw [← renumber_read]
      refine renumber_bind f fun header => ?_
      exact renumber_bind f fun body => rfl
    · rw [← renumber_read]
      exact renumber_bind f fun i => rfl
    · rw [← renumber_read]
      refine renumber_bind f fun e => ?_
      exact renumber_bind f fun body => rfl
    · rw [← renumber_read]
      refine renumber_bind f fun i => ?_
      rw [← renumber_warn]
      exact renumber_bind f fun _ => rfl

theorem lowerNodes_renumber (options : Options) : ∀ nodes : List Node,
    lowerNodes options (Outline.renumber f nodes) = (lowerNodes options nodes).renumber f id
  | [] => rfl
  | node :: nodes => by
    rw [Outline.renumber]
    unfold lowerNodes
    rw [lowerNode_renumber options node, lowerNodes_renumber options nodes]
    refine renumber_bind f fun first => ?_
    exact renumber_bind f fun rest => rfl

end

theorem lowerComponent_renumber (options : Options) (line : Line) (signature : String)
    (children : List Node) :
    lowerComponent options (line.renumber f) signature (Outline.renumber f children) =
      (lowerComponent options line signature children).renumber f (Component.renumber f) := by
  unfold lowerComponent
  rw [← renumber_read, lowerNodes_renumber]
  refine renumber_bind f fun ⟨signature, warnings⟩ => ?_
  dsimp only [id]
  rw [← renumber_warn]
  refine renumber_bind f fun _ => ?_
  split
  · rfl
  · exact renumber_bind f fun body => rfl

theorem lowerTopLevel_renumber (options : Options) (node : Node) :
    lowerTopLevel options (node.renumber f) =
      (lowerTopLevel options node).renumber f (Option.map (Component.renumber f)) := by
  obtain ⟨line, children⟩ := node
  have htext : (line.renumber f).text = line.text := rfl
  rw [Node.renumber]
  unfold lowerTopLevel
  dsimp only
  rw [htext]
  split
  · rfl
  · rw [lowerComponent_renumber]
    exact renumber_bind f fun c => rfl
  · rfl

theorem lower_components_renumber (options : Options) (outline : Outline) :
    (lower options (Outline.renumber f outline)).1 =
      (lower options outline).1.map (Component.renumber f) := by
  rw [lower_components, lower_components, Outline.renumber_eq_map, List.flatMap_map,
    List.map_flatMap]
  refine List.flatMap_congr fun n _ => ?_
  rw [lowerTopLevel_renumber, component?_renumber]
  cases (lowerTopLevel options n).component? <;> rfl

/-- **Lowering an outline under other numbers**, growing like the old ones, changes nothing but the
numbers. -/
theorem lower_renumber (options : Options) {outline : Outline}
    (h : Ascending (Outline.lines outline))
    (hrenumbered : Ascending (Outline.lines (Outline.renumber f outline))) :
    lower options (Outline.renumber f outline) =
      ((lower options outline).1.map (Component.renumber f),
        (lower options outline).2.map (Diagnostic.renumber f)) := by
  refine Prod.ext (lower_components_renumber f options outline) ?_
  rw [lower_diagnostics options hrenumbered, lower_diagnostics options h, Outline.renumber_eq_map,
    List.flatMap_map, List.map_flatMap]
  refine List.flatMap_congr fun n _ => ?_
  rw [lowerTopLevel_renumber, diagnostics_renumber]

/-! ## Optimizing -/

namespace Inlining

theorem tableOf_renumber (components : List Component) :
    tableOf (components.map (Component.renumber f)) = tableOf components := by
  rw [tableOf, tableOf, List.filterMap_map]
  rfl

theorem totalSites_renumber (table : Table) (components : List Component) :
    totalSites table (components.map (Component.renumber f)) = totalSites table components := by
  rw [totalSites, totalSites, List.foldr_map]
  rfl

theorem inlineOnce_renumber (table : Table) (c : Component) :
    inlineOnce table (c.renumber f) = (inlineOnce table c).renumber f := by
  have hbody : (c.renumber f).body = c.body := rfl
  unfold inlineOnce
  rw [hbody]
  split
  · rfl
  · rfl

theorem round_renumber (components : List Component) :
    round (components.map (Component.renumber f)) =
      (round components).map (Component.renumber f) := by
  rw [round, round, tableOf_renumber, List.map_map, List.map_map]
  exact List.map_congr_left fun c _ => inlineOnce_renumber f _ c

theorem rounds_renumber (n : Nat) (components : List Component) :
    (rounds n (components.map (Component.renumber f))).1 =
      (rounds n components).1.map (Component.renumber f) := by
  induction n generalizing components with
  | zero => rfl
  | succ n ih =>
    rw [rounds_succ, rounds_succ, tableOf_renumber, totalSites_renumber, round_renumber]
    split
    · rfl
    · exact ih (round components)

end Inlining

/-- **The optimizer does not see line numbers.** -/
theorem optimize_renumber (options : Options) (components : List Component) :
    optimize options (components.map (Component.renumber f)) =
      (optimize options components).map (Component.renumber f) := by
  have hcoalesce : ((components.map (Component.renumber f)).map fun c =>
      { c with body := c.body.coalesce }) =
        (components.map fun c => { c with body := c.body.coalesce }).map
          (Component.renumber f) := by
    rw [List.map_map, List.map_map]
    rfl
  unfold optimize
  dsimp only
  rw [hcoalesce]
  split
  · have hlength : ∀ cs : List Component, (cs.map (Component.renumber f)).length = cs.length :=
      fun cs => List.length_map _
    rw [Inlining.inlineCalls, hlength, Inlining.rounds_renumber]
    rfl
  · rfl

theorem map_emit_renumber (options : Options) (components : List Component) :
    (components.map (Component.renumber f)).map (·.emit options) =
      components.map (·.emit options) := by
  rw [List.map_map]
  rfl

end Stencil
