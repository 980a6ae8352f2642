/-
Drafts: outlines before they have a place in a source. A draft is a text with the texts nested
below it. It is printed by writing each text on a line of its own, behind as many tabs as it is
deep.

`parse_print`: a printed draft is read back as the outline with the same texts in the same
nesting, its lines numbered in order. The looser policy reads every draft, the stricter one those
in which no line closes two levels.
-/
import Stencil.Proofs.Outline.Reading
import Stencil.Proofs.Text.Lines
import Stencil.Proofs.Text.Runs

namespace Stencil

/-- A text with the texts nested below it. -/
structure Draft where
  text : String
  children : List Draft

namespace Draft

mutual

/-- The texts of a draft in order, each with its depth. -/
def rows (depth : Nat) : Draft → List (Nat × String)
  | ⟨text, children⟩ => (depth, text) :: rowsAll (depth + 1) children

/-- The texts of several drafts in order, each with its depth. -/
def rowsAll (depth : Nat) : List Draft → List (Nat × String)
  | [] => []
  | d :: ds => d.rows depth ++ rowsAll depth ds

end

/-- A text behind as many tabs as it is deep. -/
def indented (row : Nat × String) : List Char := List.replicate row.1 '\t' ++ row.2.toList

/-- Texts on lines of their own. -/
def printRows (rows : List (Nat × String)) : List Char :=
  rows.flatMap fun row => indented row ++ ['\n']

/-- The source that drafts stand for. -/
def print (ds : List Draft) : String := String.ofList (printRows (rowsAll 0 ds))

mutual

/-- The node of a draft whose text stands on line `number`. -/
def node (number indent : Nat) : Draft → Node
  | ⟨text, children⟩ => ⟨⟨number, indent, text⟩, nodes (number + 1) (indent + 1) children⟩

/-- The nodes of drafts whose first text stands on line `number`. -/
def nodes (number indent : Nat) : List Draft → List Node
  | [] => []
  | d :: ds => d.node number indent :: nodes (number + (d.rows indent).length) indent ds

end

/-- A text that is a line of an outline as it stands. -/
structure IsLine (text : String) : Prop where
  not_blank : Text.allBlank text.toList = false
  no_tab : text.toList.head? ≠ some '\t'
  no_feed : '\n' ∉ text.toList
  no_return : '\r' ∉ text.toList

/-! ## Lines of the printed text -/

theorem not_mem_indented {row : Nat × String} {c : Char} (htab : c ≠ '\t')
    (h : c ∉ row.2.toList) : c ∉ indented row := by
  rw [indented, List.mem_append, List.mem_replicate, not_or]
  exact ⟨fun hc => htab hc.2, h⟩

theorem lines_printRows {rows : List (Nat × String)} (h : ∀ row ∈ rows, IsLine row.2) :
    Text.lines (printRows rows) = rows.map indented := by
  induction rows with
  | nil => rfl
  | cons row rows ih =>
    rw [List.forall_mem_cons] at h
    have hfeed := not_mem_indented (by decide) h.1.no_feed
    have hreturn := not_mem_indented (by decide) h.1.no_return
    have hunbroken : Text.Unbroken (indented row) :=
      ⟨hfeed, fun hlast => hreturn (List.mem_of_getLast? hlast)⟩
    have hrows := ih h.2
    unfold printRows at hrows ⊢
    rw [List.flatMap_cons, List.append_assoc, List.singleton_append,
      Text.lines_break hunbroken, hrows, List.map_cons]

theorem ofChars_indented {row : Nat × String} (h : IsLine row.2) (number : Nat) :
    Line.ofChars number (indented row) = ⟨number, row.1, row.2⟩ := by
  have hrun : ∀ c ∈ List.replicate row.1 '\t', (c == '\t') = true := by simp
  have hrest : ∀ c ∈ row.2.toList.head?, (c == '\t') = false := by
    rintro c hc
    have := h.no_tab
    rw [Option.mem_def.mp hc] at this
    simpa using this
  rw [Line.ofChars, indented, Text.takeWhile_run hrun hrest, Text.dropWhile_run hrun hrest,
    List.length_replicate, String.ofList_toList]

theorem allBlank_indented {row : Nat × String} (h : IsLine row.2) :
    Text.allBlank (indented row) = false := by
  have := h.not_blank
  unfold Text.allBlank indented at *
  rw [List.all_append, this, Bool.and_false]

/-- Texts as lines that are numbered from `number` on. -/
def linesFrom (number : Nat) : List (Nat × String) → List Line
  | [] => []
  | (indent, text) :: rows => ⟨number, indent, text⟩ :: linesFrom (number + 1) rows

theorem filterMap_zipIdx_indented {rows : List (Nat × String)} (h : ∀ row ∈ rows, IsLine row.2) :
    ∀ number, ((rows.map indented).zipIdx number).filterMap (fun (cs, number) =>
      if Text.allBlank cs then none else some (Line.ofChars number cs)) =
        linesFrom number rows := by
  induction rows with
  | nil => exact fun _ => rfl
  | cons row rows ih =>
    intro number
    rw [List.forall_mem_cons] at h
    rw [List.map_cons, List.zipIdx_cons, List.filterMap_cons, ih h.2]
    simp only [allBlank_indented h.1, ofChars_indented h.1, Bool.false_eq_true, if_false]
    rfl

theorem contentLines_print {ds : List Draft} (h : ∀ row ∈ rowsAll 0 ds, IsLine row.2) :
    contentLines (print ds) = linesFrom 1 (rowsAll 0 ds) := by
  rw [contentLines, print, String.toList_ofList, lines_printRows h, filterMap_zipIdx_indented h]

/-! ## Lines of the nodes -/

theorem linesFrom_append (as bs : List (Nat × String)) :
    ∀ number, linesFrom number (as ++ bs) =
      linesFrom number as ++ linesFrom (number + as.length) bs := by
  induction as with
  | nil => exact fun _ => rfl
  | cons a as ih =>
    intro number
    rw [List.cons_append, linesFrom, linesFrom, ih, List.cons_append, List.length_cons,
      Nat.add_assoc number 1, Nat.add_comm 1]

mutual

theorem lines_node : ∀ (d : Draft) (number indent : Nat),
    (d.node number indent).lines = linesFrom number (d.rows indent)
  | ⟨text, children⟩, number, indent => by
    rw [node, Node.lines, rows, linesFrom, lines_nodes children]

theorem lines_nodes : ∀ (ds : List Draft) (number indent : Nat),
    Outline.lines (nodes number indent ds) = linesFrom number (rowsAll indent ds)
  | [], _, _ => rfl
  | d :: ds, number, indent => by
    rw [nodes, Outline.lines, rowsAll, linesFrom_append, lines_node d, lines_nodes ds]

end

mutual

theorem indentedBy_node : ∀ (d : Draft) (number indent : Nat),
    (d.node number indent).IndentedBy indent
  | ⟨_, children⟩, number, indent => ⟨rfl, indentedBy_nodes children (number + 1) (indent + 1)⟩

theorem indentedBy_nodes : ∀ (ds : List Draft) (number indent : Nat),
    Outline.IndentedBy indent (nodes number indent ds)
  | [], _, _ => trivial
  | d :: ds, number, indent =>
    ⟨indentedBy_node d number indent, indentedBy_nodes ds _ indent⟩

end

theorem map_indent_linesFrom (rows : List (Nat × String)) :
    ∀ number, (linesFrom number rows).map Line.indent = rows.map (·.1) := by
  induction rows with
  | nil => exact fun _ => rfl
  | cons row rows ih =>
    intro number
    rw [linesFrom, List.map_cons, List.map_cons, ih]

/-- Printed drafts are read back as their nodes. -/
theorem parse_print {policy : DedentPolicy} {ds : List Draft}
    (hlines : ∀ row ∈ rowsAll 0 ds, IsLine row.2)
    (hdedent : policy = .singleLevel →
      ((rowsAll 0 ds).map (·.1)).IsChain fun i j => i ≤ j + 1) :
    Outline.parse policy (print ds) = .ok (nodes 1 0 ds) := by
  refine Outline.parse_eq_ok_iff.mpr ⟨?_, indentedBy_nodes ds 1 0, fun hpolicy => ?_⟩
  · rw [lines_nodes, contentLines_print hlines]
  · rw [Outline.SingleDedents, contentLines_print hlines, map_indent_linesFrom]
    exact hdedent hpolicy

end Draft

end Stencil
