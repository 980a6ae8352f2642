/-
The shape of an outline. Its lines in preorder, each indented by its depth, say all there is to
say about it: what is below a line are the lines that follow it as long as they are indented more,
so two outlines with the same lines are the same (`eq_of_lines`). Read in order, the lines never go
in by more than one tab at a time (`isChain_lines`).
-/
import Mathlib.Data.List.Chain
import Stencil.Outline

namespace Stencil

mutual

/-- The lines of a node in the order of the source. -/
def Node.lines : Node → List Line
  | ⟨line, children⟩ => line :: Outline.lines children

/-- The lines of an outline in the order of the source. -/
def Outline.lines : List Node → List Line
  | [] => []
  | n :: ns => n.lines ++ Outline.lines ns

end

mutual

/-- The node is indented by `depth`, and each level below it by one tab more. -/
def Node.IndentedBy (depth : Nat) : Node → Prop
  | ⟨line, children⟩ => line.indent = depth ∧ Outline.IndentedBy (depth + 1) children

/-- Every node is indented by `depth`, and each level below by one tab more. -/
def Outline.IndentedBy (depth : Nat) : List Node → Prop
  | [] => True
  | n :: ns => n.IndentedBy depth ∧ Outline.IndentedBy depth ns

end

namespace Outline

/-! ## Lines -/

theorem lines_eq_flatMap (ns : List Node) : Outline.lines ns = ns.flatMap Node.lines := by
  induction ns with
  | nil => rfl
  | cons n ns ih => rw [Outline.lines, ih, List.flatMap_cons]

theorem lines_append (ms ns : List Node) :
    Outline.lines (ms ++ ns) = Outline.lines ms ++ Outline.lines ns := by
  simp only [lines_eq_flatMap, List.flatMap_append]

theorem lines_singleton (n : Node) : Outline.lines [n] = n.lines := List.append_nil _

theorem line_mem_lines {n : Node} {ns : List Node} (h : n ∈ ns) : n.line ∈ Outline.lines ns := by
  obtain ⟨top, children⟩ := n
  rw [lines_eq_flatMap ns, List.mem_flatMap]
  exact ⟨⟨top, children⟩, h, List.mem_cons_self⟩

/-- The lines below a top-level line are lines of the outline. -/
theorem lines_children_subset {n : Node} {ns : List Node} (h : n ∈ ns) :
    Outline.lines n.children ⊆ Outline.lines ns := by
  obtain ⟨top, children⟩ := n
  intro line hline
  rw [lines_eq_flatMap ns, List.mem_flatMap]
  exact ⟨⟨top, children⟩, h, List.mem_cons_of_mem top hline⟩

/-! ## Depths -/

theorem indentedBy_iff {depth : Nat} {ns : List Node} :
    Outline.IndentedBy depth ns ↔ ∀ n ∈ ns, n.IndentedBy depth := by
  induction ns with
  | nil => simp [Outline.IndentedBy]
  | cons n ns ih => rw [Outline.IndentedBy, ih, List.forall_mem_cons]

mutual

theorem indent_of_mem_node_lines {depth : Nat} : ∀ (n : Node), n.IndentedBy depth →
    ∀ line ∈ n.lines, depth ≤ line.indent
  | ⟨top, children⟩, ⟨htop, hchildren⟩, line, hline => by
    rcases List.mem_cons.mp hline with rfl | hline
    · exact htop.ge
    · have := indent_of_mem_lines children hchildren line hline
      omega

/-- No line stands further out than the outline itself. -/
theorem indent_of_mem_lines {depth : Nat} : ∀ (ns : List Node), Outline.IndentedBy depth ns →
    ∀ line ∈ Outline.lines ns, depth ≤ line.indent
  | [], _, line, hline => by cases hline
  | n :: ns, ⟨hn, hns⟩, line, hline => by
    rcases List.mem_append.mp hline with hline | hline
    · exact indent_of_mem_node_lines n hn line hline
    · exact indent_of_mem_lines ns hns line hline

end

/-- An outline starts at its own depth. -/
theorem indent_of_head?_lines {depth : Nat} {ns : List Node} (h : Outline.IndentedBy depth ns)
    {line : Line} (hline : line ∈ (Outline.lines ns).head?) : line.indent = depth := by
  cases ns with
  | nil => cases hline
  | cons n ns =>
    obtain ⟨top, children⟩ := n
    cases hline
    exact h.1.1

mutual

theorem isChain_node_lines {depth : Nat} : ∀ (n : Node), n.IndentedBy depth →
    n.lines.IsChain fun a b => b.indent ≤ a.indent + 1
  | ⟨top, children⟩, ⟨htop, hchildren⟩ => by
    refine (isChain_lines children hchildren).cons fun line hline => ?_
    rw [indent_of_head?_lines hchildren hline, htop]

/-- **From one line to the next an outline goes in by one tab at most.** -/
theorem isChain_lines {depth : Nat} : ∀ (ns : List Node), Outline.IndentedBy depth ns →
    (Outline.lines ns).IsChain fun a b => b.indent ≤ a.indent + 1
  | [], _ => .nil
  | n :: ns, ⟨hn, hns⟩ => by
    refine List.isChain_append.mpr ⟨isChain_node_lines n hn, isChain_lines ns hns,
      fun a ha b hb => ?_⟩
    -- The next node starts at the depth that no line of this one is further out than.
    have := indent_of_mem_node_lines n hn a (List.mem_of_mem_getLast? ha)
    rw [indent_of_head?_lines hns hb]
    omega

end

/-! ## Outlines with the same lines -/

/-- The lines below a line are those that follow it up to one that is not indented more. -/
theorem takeWhile_lines {depth : Nat} {children ns : List Node}
    (hchildren : Outline.IndentedBy (depth + 1) children) (hns : Outline.IndentedBy depth ns) :
    (Outline.lines children ++ Outline.lines ns).takeWhile (depth < ·.indent) =
      Outline.lines children := by
  have hbelow : ∀ line ∈ Outline.lines children, decide (depth < line.indent) = true := by
    intro line hline
    exact decide_eq_true (indent_of_mem_lines children hchildren line hline)
  rw [List.takeWhile_append_of_pos hbelow]
  cases hlines : Outline.lines ns with
  | nil => simp
  | cons line lines =>
    have hfirst : line.indent = depth := indent_of_head?_lines hns (by simp [hlines])
    simp [hfirst]

mutual

theorem node_eq_of_lines {depth : Nat} : ∀ (m n : Node), m.IndentedBy depth → n.IndentedBy depth →
    m.lines = n.lines → m = n
  | ⟨a, as⟩, ⟨b, bs⟩, ⟨_, hm⟩, ⟨_, hn⟩, h => by
    rw [Node.lines, Node.lines, List.cons.injEq] at h
    rw [h.1, eq_of_lines as bs hm hn h.2]

/-- **Outlines with the same lines, each indented by its depth, are the same.** -/
theorem eq_of_lines {depth : Nat} : ∀ (ms ns : List Node), Outline.IndentedBy depth ms →
    Outline.IndentedBy depth ns → Outline.lines ms = Outline.lines ns → ms = ns
  | [], [], _, _, _ => rfl
  | [], ⟨_, _⟩ :: _, _, _, h => by cases h
  | ⟨_, _⟩ :: _, [], _, _, h => by cases h
  | ⟨a, as⟩ :: ms, ⟨b, bs⟩ :: ns, ⟨hm, hms⟩, ⟨hn, hns⟩, h => by
    have hfirst : a = b := (List.cons.inj h).1
    have hrest : Outline.lines as ++ Outline.lines ms = Outline.lines bs ++ Outline.lines ns :=
      (List.cons.inj h).2
    have hbelow : Outline.lines as = Outline.lines bs := by
      rw [← takeWhile_lines hm.2 hms, ← takeWhile_lines hn.2 hns, hrest]
    rw [hbelow, List.append_cancel_left_eq] at hrest
    rw [node_eq_of_lines ⟨a, as⟩ ⟨b, bs⟩ hm hn (by rw [Node.lines, Node.lines, hfirst, hbelow]),
      eq_of_lines ms ns hms hns hrest]

end

end Outline

end Stencil
