/-
The outline that an arena stands for. Children stand behind their parents, so a node that is read
from the last entry back finds its children among those read before it (`getElem?_nodes`). What is
pending before an entry are, as nodes, all the lines from that entry on (`lines_pending`), and each
node is indented by its depth (`indentedBy_nodes`).

So an outline is read from a source just when its lines in preorder are the non-blank lines of the
source, each is indented by its depth, and, under the stricter policy, none closes two levels
(`parse_eq_ok_iff`). The lines of an outline that was read are numbered in strictly growing order.
-/
import Stencil.Proofs.Outline.Numbering
import Stencil.Proofs.Outline.Shape

namespace Stencil

namespace Arena

/-! ## Nodes -/

/-- The nodes of all entries. -/
abbrev nodes (arena : Arena) : List Node := arena.nodesFrom 0

theorem length_nodesFrom (es : Arena) : ∀ place, (nodesFrom place es).length = es.length := by
  induction es with
  | nil => exact fun _ => rfl
  | cons e es ih =>
    intro place
    rw [nodesFrom, List.length_cons, ih, List.length_cons]

theorem getElem?_nodesFrom (es : Arena) : ∀ (place k : Nat),
    (∀ i e, es[i]? = some e → ∀ child ∈ e.children, place + i < child) →
      (nodesFrom place es)[k]? = es[k]?.map fun e =>
        ⟨e.toLine, e.children.filterMap fun id => (nodesFrom place es)[id - place]?⟩ := by
  induction es with
  | nil => exact fun _ _ _ => rfl
  | cons e es ih =>
    intro place k h
    -- A place further back is one less in what was read before.
    have hlater : ∀ id, place < id → (nodesFrom place (e :: es))[id - place]? =
        (nodesFrom (place + 1) es)[id - (place + 1)]? := by
      intro id hid
      obtain ⟨n, rfl⟩ : ∃ n, id = place + 1 + n := ⟨id - (place + 1), by omega⟩
      rw [show place + 1 + n - place = n + 1 by omega, Nat.add_sub_cancel_left, nodesFrom,
        List.getElem?_cons_succ]
    cases k with
    | zero =>
      rw [List.getElem?_cons_zero, nodesFrom, List.getElem?_cons_zero, Option.map_some]
      congr 2
      refine List.filterMap_congr fun id hid => (hlater id ?_).symm
      exact h 0 e rfl id hid
    | succ k =>
      have hbehind : ∀ i e', es[i]? = some e' → ∀ child ∈ e'.children, place + 1 + i < child := by
        intro i e' he' child hchild
        have := h (i + 1) e' he' child hchild
        omega
      rw [List.getElem?_cons_succ, nodesFrom, List.getElem?_cons_succ, ih (place + 1) k hbehind]
      cases he : es[k]? with
      | none => rfl
      | some e' =>
        rw [Option.map_some, Option.map_some]
        congr 2
        refine List.filterMap_congr fun id hid => (hlater id ?_).symm
        have := hbehind k e' he id hid
        omega

variable {arena : Arena} {id : Nat}

namespace Linked

theorem lt_of_mem_childIds (h : Linked arena) {child : Nat} (hchild : child ∈ arena.childIds id) :
    id < child := by
  obtain ⟨-, hparent⟩ := List.mem_filter.mp hchild
  exact (h.nearest_of_parentAt (of_decide_eq_true hparent)).1

/-- The node of an entry is its line with the nodes of its children. -/
theorem getElem?_nodes (h : Linked arena) (hid : id < arena.length) :
    ∃ e, arena[id]? = some e ∧ arena.nodes[id]? =
      some ⟨e.toLine, (arena.childIds id).filterMap fun child => arena.nodes[child]?⟩ := by
  have hchildren : ∀ i e, arena[i]? = some e → e.children = arena.childIds i := by
    intro i e he
    have hi : i < arena.length := (List.getElem?_eq_some_iff.mp he).1
    rw [← h.children i hi, childrenAt, he]
    rfl
  have he := List.getElem?_eq_getElem hid
  refine ⟨_, he, ?_⟩
  rw [nodes, getElem?_nodesFrom, he, Option.map_some, hchildren id _ he]
  · rfl
  · intro i e he child hchild
    rw [hchildren i e he] at hchild
    rw [Nat.zero_add]
    exact h.lt_of_mem_childIds hchild

theorem outline_eq (h : Linked arena) :
    arena.outline = (arena.pending 1).filterMap fun child => arena.nodes[child]? := by
  obtain ⟨e, -, hroot⟩ := h.getElem?_nodes h.nonempty
  rw [← h.childrenAt_root, h.children 0 h.nonempty, outline, List.head?_eq_getElem?, hroot,
    Option.elim_some]

/-- **What is pending before an entry are the lines from that entry on.** -/
theorem lines_pending (h : Linked arena) : ∀ (count id : Nat), 0 < id →
    id + count = arena.length →
      Outline.lines ((arena.pending id).filterMap fun child => arena.nodes[child]?) =
        (arena.drop id).map Entry.toLine
  | 0, id, _, hlength => by
    rw [pending, show arena.length - id = 0 by omega, List.drop_of_length_le (by omega)]
    rfl
  | count + 1, id, hpos, hlength => by
    have hid : id < arena.length := by omega
    obtain ⟨e, he, hnode⟩ := h.getElem?_nodes hid
    obtain ⟨_, hget⟩ := List.getElem?_eq_some_iff.mp he
    have hrest := h.lines_pending count (id + 1) (by omega) (by omega)
    rw [h.pending_succ hid, List.filterMap_append, Outline.lines_append] at hrest
    rw [h.pending_eq_cons hpos hid, List.filterMap_cons, hnode]
    dsimp only
    rw [Outline.lines, Node.lines, List.cons_append, hrest, List.drop_eq_getElem_cons hid, hget,
      List.map_cons]

/-- **Every node is indented by its depth.** The count bounds how many entries stand behind. -/
theorem indentedBy_nodes (h : Linked arena) : ∀ (count id : Nat), 0 < id →
    arena.length ≤ id + count → ∀ n ∈ arena.nodes[id]?, n.IndentedBy (arena.indentAt id).toNat
  | 0, id, _, hlength, n, hn => by
    rw [nodes, List.getElem?_eq_none (by rwa [length_nodesFrom])] at hn
    cases hn
  | count + 1, id, hpos, hlength, n, hn => by
    have hid : id < arena.length := by
      by_contra hid
      rw [nodes, List.getElem?_eq_none (by rw [length_nodesFrom]; omega)] at hn
      cases hn
    obtain ⟨e, he, hnode⟩ := h.getElem?_nodes hid
    have hindent : arena.indentAt id = e.indent := by rw [indentAt, he, Option.elim_some]
    have hnonneg := h.indentAt_nonneg id hpos hid
    cases hnode.symm.trans hn
    refine ⟨by rw [hindent]; rfl, Outline.indentedBy_iff.mpr fun m hm => ?_⟩
    obtain ⟨child, hchild, hm⟩ := List.mem_filterMap.mp hm
    obtain ⟨-, hparent⟩ := List.mem_filter.mp hchild
    obtain ⟨hbehind, hbelow, -⟩ := h.nearest_of_parentAt (of_decide_eq_true hparent)
    have := h.indentedBy_nodes count child (by omega) (by omega) m hm
    rwa [← hbelow, Int.toNat_add hnonneg (by omega)] at this

end Linked

/-! ## The outline of a source -/

/-- The line of an entry that says what a line says. -/
theorem toLine_of_label {e : Entry} {line : Line} (h : e.label = line.label) : e.toLine = line := by
  obtain ⟨htext, hindent, hline⟩ := label_eq_iff.mp h
  rw [Entry.toLine, htext, hindent, hline, Int.toNat_natCast]

/-- The outline of an arena has the lines of the source, each indented by its depth. -/
theorem outline_of_parse {policy : DedentPolicy} {source : String}
    (h : Arena.parse policy source = .ok arena) :
    Outline.lines arena.outline = contentLines source ∧ Outline.IndentedBy 0 arena.outline := by
  obtain ⟨hlinked, hlabels⟩ := parse_eq_ok h
  rw [hlinked.outline_eq]
  constructor
  · rw [hlinked.lines_pending (arena.length - 1) 1 Nat.one_pos (by have := hlinked.nonempty; omega)]
    obtain ⟨children, rest, rfl, hrest⟩ := hlinked.first hlabels
    have hsame := map_eq_of_labels (g := id) (fun _ _ => toLine_of_label) hrest
    rwa [List.map_id] at hsame
  · refine Outline.indentedBy_iff.mpr fun n hn => ?_
    rw [← hlinked.childrenAt_root, hlinked.children 0 hlinked.nonempty] at hn
    obtain ⟨child, hchild, hn⟩ := List.mem_filterMap.mp hn
    obtain ⟨-, hparent⟩ := List.mem_filter.mp hchild
    obtain ⟨hbehind, hbelow, -⟩ := hlinked.nearest_of_parentAt (of_decide_eq_true hparent)
    have := hlinked.indentedBy_nodes arena.length child hbehind (by omega) n hn
    rwa [← hbelow, hlinked.root] at this

end Arena

namespace Outline

/-- The indentations at which no line closes more than one level. -/
def SingleDedents (lines : List Line) : Prop :=
  (lines.map Line.indent).IsChain fun i j => i ≤ j + 1

instance (lines : List Line) : Decidable (SingleDedents lines) :=
  inferInstanceAs (Decidable (List.IsChain _ _))

/-- What a policy accepts, in two parts. -/
theorem accepts_iff {policy : DedentPolicy} {lines : List Line} :
    policy.Accepts (lines.map Line.indent) ↔
      (∀ line ∈ lines.head?, line.indent = 0) ∧
        (lines.IsChain fun a b => b.indent ≤ a.indent + 1) ∧
          (policy = .singleLevel → SingleDedents lines) := by
  rw [DedentPolicy.Accepts, SingleDedents, List.isChain_map, List.isChain_map, List.head?_map]
  refine and_congr (by simp) ?_
  simp only [List.isChain_iff_getElem, DedentPolicy.Allows]
  constructor
  · exact fun h => ⟨fun i hi => (h i hi).1, fun hpolicy i hi => (h i hi).2 hpolicy⟩
  · exact fun h i hi => ⟨h.1 i hi, fun hpolicy => h.2 hpolicy i hi⟩

theorem parse_eq {policy : DedentPolicy} {source : String} {arena : Arena}
    (h : Arena.parse policy source = .ok arena) :
    Outline.parse policy source = .ok arena.outline := by
  simp only [Outline.parse, h]

/-- **An outline is read from a source when its lines are those of the source and each stands at
the depth of its indentation**, and, under the stricter policy, when no line closes two levels. -/
theorem parse_eq_ok_iff {policy : DedentPolicy} {source : String} {outline : Outline} :
    Outline.parse policy source = .ok outline ↔
      Outline.lines outline = contentLines source ∧ Outline.IndentedBy 0 outline ∧
        (policy = .singleLevel → SingleDedents (contentLines source)) := by
  constructor
  · intro h
    unfold Outline.parse at h
    split at h
    · next arena hparse =>
      cases h
      obtain ⟨hlines, hindented⟩ := Arena.outline_of_parse hparse
      have haccepts := (Arena.exists_parse_iff policy source).mp ⟨arena, hparse⟩
      rw [← map_indent_contentFrom 1] at haccepts
      exact ⟨hlines, hindented, (accepts_iff.mp haccepts).2.2⟩
    · cases h
  · intro ⟨hlines, hindented, hdedent⟩
    have haccepts : policy.Accepts ((contentLines source).map Line.indent) := by
      rw [accepts_iff, ← hlines]
      refine ⟨fun line => indent_of_head?_lines hindented, isChain_lines outline hindented, ?_⟩
      rwa [hlines]
    obtain ⟨arena, hparse⟩ := Arena.parse_of_accepts haccepts
    obtain ⟨hlines', hindented'⟩ := Arena.outline_of_parse hparse
    rw [parse_eq hparse, eq_of_lines _ _ hindented' hindented (hlines'.trans hlines.symm)]

/-- A source has no outline when there is a first line whose tabs are not accepted any more. -/
theorem parse_eq_error_iff {policy : DedentPolicy} {source : String} {e : IndentationError} :
    Outline.parse policy source = .error e ↔ ∃ before line after,
      contentLines source = before ++ line :: after ∧
        policy.Accepts (before.map Line.indent) ∧
        ¬ policy.Accepts ((before ++ [line]).map Line.indent) ∧
        e = ⟨line.number, line.indent, openBlockIndent (before.map Line.indent)⟩ := by
  have herror : ∀ {before line after}, contentLines source = before ++ line :: after →
      policy.Accepts (before.map Line.indent) →
        ¬ policy.Accepts ((before ++ [line]).map Line.indent) → Outline.parse policy source =
          .error ⟨line.number, line.indent, openBlockIndent (before.map Line.indent)⟩ := by
    intro before line after hlines hbefore hline
    rw [List.map_append, List.map_singleton] at hline
    rw [Outline.parse, Arena.parse, hlines,
      Arena.Builder.addAll_of_not_accepts hbefore hline]
  constructor
  · intro h
    have hfirst := Lists.holds_or_exists_first
      (P := fun lines => policy.Accepts (lines.map Line.indent)) DedentPolicy.accepts_nil
      (contentLines source)
    rcases hfirst with haccepts | ⟨before, line, after, hlines, hbefore, hline⟩
    · obtain ⟨arena, harena⟩ := Arena.parse_of_accepts haccepts
      cases (parse_eq harena).symm.trans h
    · cases (herror hlines hbefore hline).symm.trans h
      exact ⟨before, line, after, hlines, hbefore, hline, rfl⟩
  · rintro ⟨before, line, after, hlines, hbefore, hline, rfl⟩
    exact herror hlines hbefore hline

/-- The lines of the nodes are in order, and those of a node stand above those of a later one. -/
theorem ascending_iff {outline : Outline} : Ascending (Outline.lines outline) ↔
    (∀ n ∈ outline, Ascending n.lines) ∧
      outline.Pairwise fun m n => ∀ a ∈ m.lines, ∀ b ∈ n.lines, a.number < b.number := by
  rw [Outline.lines_eq_flatMap]
  exact List.pairwise_flatMap

end Outline

theorem ascending_of_parse {policy : DedentPolicy} {source : String} {outline : Outline}
    (h : Outline.parse policy source = .ok outline) : Ascending (Outline.lines outline) := by
  rw [(Outline.parse_eq_ok_iff.mp h).1]
  exact ascending_contentLines source

end Stencil
