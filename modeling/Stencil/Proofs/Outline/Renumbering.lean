/-
Outlines with other line numbers. Whether a source has an outline depends on how far its lines are
indented, and the numbers are only copied, so the same lines with other numbers give the same
outline with those numbers, or fail at the same line (`parse_renumber`).
-/
import Stencil.Proofs.Outline.Reading

namespace Stencil

mutual

/-- The node with other line numbers. -/
def Node.renumber (f : Nat → Nat) : Node → Node
  | ⟨line, children⟩ => ⟨line.renumber f, Outline.renumber f children⟩

/-- The nodes with other line numbers. -/
def Outline.renumber (f : Nat → Nat) : List Node → List Node
  | [] => []
  | n :: ns => n.renumber f :: Outline.renumber f ns

end

/-- The error at the same line under another number. -/
def IndentationError.renumber (f : Nat → Nat) (e : IndentationError) : IndentationError :=
  { e with line := f e.line }

namespace Outline

variable (f : Nat → Nat)

theorem renumber_eq_map (ns : List Node) : Outline.renumber f ns = ns.map (Node.renumber f) := by
  induction ns with
  | nil => rfl
  | cons n ns ih => rw [Outline.renumber, ih, List.map_cons]

mutual

theorem lines_node_renumber : ∀ n : Node, (n.renumber f).lines = n.lines.map (Line.renumber f)
  | ⟨line, children⟩ => by
    rw [Node.renumber, Node.lines, Node.lines, List.map_cons, lines_renumber children]

theorem lines_renumber : ∀ ns : List Node,
    Outline.lines (Outline.renumber f ns) = (Outline.lines ns).map (Line.renumber f)
  | [] => rfl
  | n :: ns => by
    rw [Outline.renumber, Outline.lines, Outline.lines, List.map_append, lines_node_renumber n,
      lines_renumber ns]

end

mutual

theorem indentedBy_node_renumber {depth : Nat} : ∀ n : Node, n.IndentedBy depth →
    (n.renumber f).IndentedBy depth
  | ⟨_, children⟩, ⟨hline, hchildren⟩ => ⟨hline, indentedBy_renumber children hchildren⟩

theorem indentedBy_renumber {depth : Nat} : ∀ ns : List Node, Outline.IndentedBy depth ns →
    Outline.IndentedBy depth (Outline.renumber f ns)
  | [], _ => trivial
  | n :: ns, ⟨hn, hns⟩ => ⟨indentedBy_node_renumber n hn, indentedBy_renumber ns hns⟩

end

end Outline

theorem map_indent_renumber (f : Nat → Nat) (lines : List Line) :
    (lines.map (Line.renumber f)).map Line.indent = lines.map Line.indent := by
  rw [List.map_map]
  rfl

/-- **A source with the lines of an outline, up to their numbers, is read to that outline.** -/
theorem parse_of_lines {outline : Outline} (hindented : Outline.IndentedBy 0 outline)
    {source : String} {f : Nat → Nat}
    (h : contentLines source = (Outline.lines outline).map (Line.renumber f)) :
    Outline.parse .anyLevel source = .ok (Outline.renumber f outline) := by
  rw [Outline.parse_eq_ok_iff, h]
  exact ⟨Outline.lines_renumber f outline, Outline.indentedBy_renumber f outline hindented,
    fun hpolicy => by cases hpolicy⟩

/-- Lines with other numbers are read to the same outline with those numbers. -/
theorem parse_renumber {policy : DedentPolicy} {s t : String} {f : Nat → Nat}
    (h : contentLines t = (contentLines s).map (Line.renumber f)) :
    Outline.parse policy t =
      ((Outline.parse policy s).map (Outline.renumber f)).mapError
        (IndentationError.renumber f) := by
  cases hs : Outline.parse policy s with
  | ok outline =>
    obtain ⟨hlines, hindented, hdedent⟩ := Outline.parse_eq_ok_iff.mp hs
    refine Outline.parse_eq_ok_iff.mpr ⟨?_, Outline.indentedBy_renumber f outline hindented, ?_⟩
    · rw [Outline.lines_renumber, hlines, h]
    · rwa [h, Outline.SingleDedents, map_indent_renumber]
  | error e =>
    obtain ⟨before, line, after, hlines, hbefore, hline, rfl⟩ := Outline.parse_eq_error_iff.mp hs
    refine Outline.parse_eq_error_iff.mpr ⟨before.map (Line.renumber f), line.renumber f,
      after.map (Line.renumber f), ?_, ?_, ?_, ?_⟩
    · rw [h, hlines, List.map_append, List.map_cons]
    · rwa [map_indent_renumber]
    · rwa [← List.map_singleton, ← List.map_append, map_indent_renumber]
    · rw [map_indent_renumber]
      rfl

end Stencil
