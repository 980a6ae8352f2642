/-
Taking a node out of an outline. The lines of a node stand together in the source, so an outline
without one of its nodes has the lines of the whole without the lines of the node, and each is
indented by its depth as before (`lines_of_removes`, `IndentedBy.removes`).
-/
import Stencil.Proofs.Outline.Reading

namespace Stencil.Outline

/-- The node is one of the nodes or stands below one of them, at any depth. -/
inductive HasNode (n : Node) : List Node → Prop
  | here {ns : List Node} : n ∈ ns → HasNode n ns
  | nested {m : Node} {ns : List Node} : m ∈ ns → HasNode n m.children → HasNode n ns

/-- The second outline is the first without the node, wherever the node stands, and without what is
below it. -/
inductive Removes (n : Node) : List Node → List Node → Prop
  | here (ns : List Node) : Removes n (n :: ns) ns
  | nested {line : Line} {children pruned : List Node} (ns : List Node) :
      Removes n children pruned → Removes n (⟨line, children⟩ :: ns) (⟨line, pruned⟩ :: ns)
  | after (m : Node) {ns pruned : List Node} :
      Removes n ns pruned → Removes n (m :: ns) (m :: pruned)

variable {n : Node} {ns pruned : List Node}

theorem exists_removes_of_mem (h : n ∈ ns) : ∃ pruned, Removes n ns pruned := by
  induction ns with
  | nil => cases h
  | cons m ns ih =>
    rcases List.mem_cons.mp h with heq | hmem
    · subst heq
      exact ⟨ns, .here ns⟩
    · obtain ⟨pruned, hpruned⟩ := ih hmem
      exact ⟨m :: pruned, .after m hpruned⟩

theorem exists_removes_below {m : Node} (hm : m ∈ ns) (h : Removes n m.children pruned) :
    ∃ others, Removes n ns others := by
  obtain ⟨line, children⟩ := m
  induction ns with
  | nil => cases hm
  | cons k ns ih =>
    rcases List.mem_cons.mp hm with heq | hmem
    · subst heq
      exact ⟨⟨line, pruned⟩ :: ns, .nested ns h⟩
    · obtain ⟨others, hothers⟩ := ih hmem
      exact ⟨k :: others, .after k hothers⟩

/-- Every node of an outline can be taken out. -/
theorem HasNode.exists_removes (h : HasNode n ns) : ∃ pruned, Removes n ns pruned := by
  induction h with
  | here hmem => exact exists_removes_of_mem hmem
  | nested hmem _ ih =>
    obtain ⟨pruned, hpruned⟩ := ih
    exact exists_removes_below hmem hpruned

/-- **An outline without a node has the other lines.** -/
theorem lines_of_removes (h : Removes n ns pruned) : ∃ before after,
    Outline.lines ns = before ++ n.lines ++ after ∧ Outline.lines pruned = before ++ after := by
  induction h with
  | here ns => exact ⟨[], Outline.lines ns, rfl, rfl⟩
  | @nested line children pruned ns _ ih =>
    obtain ⟨before, after, hlines, hpruned⟩ := ih
    refine ⟨line :: before, after ++ Outline.lines ns, ?_, ?_⟩
    · simp [Outline.lines, Node.lines, hlines]
    · simp [Outline.lines, Node.lines, hpruned]
  | after m _ ih =>
    obtain ⟨before, after, hlines, hpruned⟩ := ih
    refine ⟨m.lines ++ before, after, ?_, ?_⟩
    · simp [Outline.lines, hlines]
    · simp [Outline.lines, hpruned]

theorem IndentedBy.removes {depth : Nat} (h : Outline.IndentedBy depth ns)
    (hremoves : Removes n ns pruned) : Outline.IndentedBy depth pruned := by
  induction hremoves generalizing depth with
  | here ns => exact h.2
  | nested ns _ ih => exact ⟨⟨h.1.1, ih h.1.2⟩, h.2⟩
  | after m _ ih => exact ⟨h.1, ih h.2⟩

/-- The lines that are not lines of the node, as they stand in the source. -/
theorem lines_filter_of_removes (h : Removes n ns pruned)
    (hascending : Ascending (Outline.lines ns)) :
    Outline.lines pruned = (Outline.lines ns).filter (· ∉ n.lines) := by
  obtain ⟨before, after, hlines, hpruned⟩ := lines_of_removes h
  have hnodup : (before ++ n.lines ++ after).Nodup := by
    rw [← hlines]
    refine hascending.imp fun hlt heq => ?_
    rw [heq] at hlt
    omega
  obtain ⟨hfront, -, hback⟩ := List.nodup_append.mp hnodup
  obtain ⟨-, -, hbefore⟩ := List.nodup_append.mp hfront
  have hkept : ∀ line ∈ before, line ∉ n.lines := fun line hline hmem =>
    hbefore line hline line hmem rfl
  have hrest : ∀ line ∈ after, line ∉ n.lines := fun line hline hmem =>
    hback line (List.mem_append_right before hmem) line hline rfl
  have hdropped : n.lines.filter (· ∉ n.lines) = [] := by simp
  rw [hpruned, hlines, List.filter_append, List.filter_append, hdropped, List.append_nil,
    List.filter_eq_self.mpr (by simpa using hkept), List.filter_eq_self.mpr (by simpa using hrest)]

end Stencil.Outline
