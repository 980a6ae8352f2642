/-
Comments do not influence what a source compiles to. A comment gives no instructions and has no
fault, whatever is below it, so an outline without one of its comments is lowered to the same
components (`lower_of_removes`); all that can change is how many lines a warning counts below a
call. A source without the lines of a comment is read to the outline without it, under other
numbers, and these are in no component that is written.
-/
import Stencil.Proofs.Component.Renumbering
import Stencil.Proofs.Outline.Removal

namespace Stencil

open Lowered Outline

/-! ## Results -/

theorem Lowered.result_bind_congr {α β : Type} {x y : Lowered α} {f g : α → Lowered β}
    (hx : x.result = y.result) (hf : ∀ a, (f a).result = (g a).result) :
    (x >>= f).result = (y >>= g).result := by
  cases hresult : x.result with
  | ok a =>
    rw [bind_of_ok hresult, bind_of_ok (hx.symm.trans hresult)]
    exact hf a
  | error d => rw [bind_of_error hresult, bind_of_error (hx.symm.trans hresult)]

theorem Lowered.component?_congr {x y : Lowered (Option Component)} (h : x.result = y.result) :
    x.component? = y.component? := by
  unfold Lowered.component?
  rw [h]

/-- The result of a line depends on the lines below it through their result only. -/
theorem result_lowerNode_congr {options : Options} {children others : List Node}
    (h : (lowerNodes options children).result = (lowerNodes options others).result) (line : Line) :
    (lowerNode options ⟨line, children⟩).result = (lowerNode options ⟨line, others⟩).result := by
  unfold lowerNode
  split
  · rfl
  · rfl
  · exact result_bind_congr h fun _ => rfl
  · refine result_bind_congr rfl fun header => ?_
    exact result_bind_congr h fun _ => rfl
  · rfl
  · refine result_bind_congr rfl fun e => ?_
    exact result_bind_congr h fun _ => rfl
  · -- The warning counts the lines below, the instruction does not.
    refine result_bind_congr rfl fun i => ?_
    exact result_bind_congr rfl fun _ => rfl

theorem result_lowerTopLevel_congr {options : Options} {children others : List Node}
    (h : (lowerNodes options children).result = (lowerNodes options others).result) (line : Line) :
    (lowerTopLevel options ⟨line, children⟩).result =
      (lowerTopLevel options ⟨line, others⟩).result := by
  unfold lowerTopLevel
  dsimp only
  split
  · rfl
  · next signature _ =>
    refine result_bind_congr ?_ fun _ => rfl
    unfold lowerComponent
    refine result_bind_congr rfl fun parsed => ?_
    refine result_bind_congr rfl fun _ => ?_
    split
    · rfl
    · exact result_bind_congr h fun _ => rfl
  · rfl

/-! ## Without a comment -/

theorem lowerNode_comment {options : Options} {n : Node}
    (h : LineKind.ofText n.line.text = .comment) : lowerNode options n = .ok [] := by
  obtain ⟨line, children⟩ := n
  simp only [lowerNode, h]
  rfl

section Removed

variable {n : Node} (hcomment : LineKind.ofText n.line.text = .comment) {ns pruned : List Node}
  (h : Removes n ns pruned) (options : Options)
include hcomment h

/-- **Lines without a comment among them or below them give the same instructions.** -/
theorem result_of_removes :
    (lowerNodes options ns).result = (lowerNodes options pruned).result := by
  induction h with
  | here ns =>
    rw [lowerNodes, lowerNode_comment hcomment, ok_bind]
    cases hresult : (lowerNodes options ns).result with
    | ok body => rw [bind_of_ok hresult]; rfl
    | error d => rw [bind_of_error hresult]
  | nested ns _ ih =>
    rw [lowerNodes, lowerNodes]
    exact result_bind_congr (result_lowerNode_congr ih _) fun _ => rfl
  | after m _ ih =>
    rw [lowerNodes, lowerNodes]
    refine result_bind_congr rfl fun first => ?_
    exact result_bind_congr ih fun _ => rfl

/-- An outline without a comment has the same components. -/
theorem lower_of_removes : (lower options ns).1 = (lower options pruned).1 := by
  simp only [lower_components]
  induction h with
  | here ns =>
    rw [List.flatMap_cons, lowerTopLevel_comment hcomment]
    rfl
  | nested ns hchildren =>
    have hresult := result_of_removes hcomment hchildren options
    rw [List.flatMap_cons, List.flatMap_cons,
      component?_congr (result_lowerTopLevel_congr hresult _)]
  | after m _ ih => rw [List.flatMap_cons, List.flatMap_cons, ih]

end Removed

/-- **Comments are invisible in the output.** Let a source be read under the looser policy, and let
`n` be a comment of it, at any depth. A source whose non-blank lines are those of the first without
the comment and the lines nested below it is read too, and compiles to the same components. -/
theorem compile_without_comment {options : Options} (hpolicy : options.dedent = .anyLevel)
    {s t : String} {outline : Outline} (hs : Outline.parse .anyLevel s = .ok outline) {n : Node}
    (hn : HasNode n outline) (hcomment : LineKind.ofText n.line.text = .comment)
    (ht : nonBlankLines t = ((contentLines s).filter (· ∉ n.lines)).map Line.chars) :
    (∃ pruned, Outline.parse .anyLevel t = .ok pruned) ∧
      (compile options t).components = (compile options s).components := by
  obtain ⟨hlines, hindented, -⟩ := Outline.parse_eq_ok_iff.mp hs
  obtain ⟨pruned, hremoves⟩ := hn.exists_removes
  have hpruned := lines_filter_of_removes hremoves (ascending_of_parse hs)
  rw [hlines] at hpruned
  -- The lines of `t` are those of the outline without the comment, up to their numbers.
  have hkept : ∀ line ∈ Outline.lines pruned, line ∈ contentLines s := by
    rw [hpruned]
    exact List.filter_sublist.subset
  have hascending : Ascending (Outline.lines pruned) := by
    rw [hpruned]
    exact (ascending_contentLines s).sublist List.filter_sublist
  have hchars : (Outline.lines pruned).map Line.chars = (contentLines t).map Line.chars := by
    rw [map_chars_contentLines, ht, hpruned]
  obtain ⟨f, hf⟩ := exists_renumber
    (fun line hline => faithful_of_mem_contentLines (hkept line hline))
    (fun _ => faithful_of_mem_contentLines) hascending hchars
  have hparse := parse_of_lines (hindented.removes hremoves) hf
  refine ⟨⟨_, hparse⟩, ?_⟩
  rw [← hpolicy] at hs hparse
  rw [components_compile hs, components_compile hparse, lower_components_renumber,
    optimize_renumber, map_emit_renumber, lower_of_removes hcomment hremoves]

/-- A comment deep inside a list. What is below it would be a fault, and the line after it closes
three levels. -/
def remark : Node := ⟨⟨4, 3, "// why"⟩, [⟨⟨5, 4, "each bad"⟩, []⟩]⟩

def remarkedSource : String :=
  "component A\n\tul\n\t\tli One\n\t\t\t// why\n\t\t\t\teach bad\n\tp Two\n"

def remarkedOutline : Outline :=
  [⟨⟨1, 0, "component A"⟩,
    [⟨⟨2, 1, "ul"⟩, [⟨⟨3, 2, "li One"⟩, [remark]⟩]⟩, ⟨⟨6, 1, "p Two"⟩, []⟩]⟩]

def unremarkedSource : String := "component A\n\tul\n\t\tli One\n\n\tp Two"

theorem compile_without_comment_remark :
    Outline.parse .anyLevel remarkedSource = .ok remarkedOutline ∧
      HasNode remark remarkedOutline ∧ LineKind.ofText remark.line.text = .comment ∧
      nonBlankLines unremarkedSource =
        ((contentLines remarkedSource).filter (· ∉ remark.lines)).map Line.chars ∧
      (compile { dedent := .anyLevel } remarkedSource).components.map (·.name) = ["A"] ∧
      (compile { dedent := .anyLevel } unremarkedSource).components =
        (compile { dedent := .anyLevel } remarkedSource).components := by
  have hparse : Outline.parse .anyLevel remarkedSource = .ok remarkedOutline := rfl
  have hnode : HasNode remark remarkedOutline :=
    .nested List.mem_cons_self (.nested List.mem_cons_self (.nested List.mem_cons_self
      (.here List.mem_cons_self)))
  have hcomment : LineKind.ofText remark.line.text = .comment := by decide
  have hlines : nonBlankLines unremarkedSource =
      ((contentLines remarkedSource).filter (· ∉ remark.lines)).map Line.chars := by
    decide +kernel
  obtain ⟨-, hcomponents⟩ := @compile_without_comment { dedent := .anyLevel } rfl _ _ _ hparse _
    hnode hcomment hlines
  exact ⟨hparse, hnode, hcomment, hlines, by decide +kernel, hcomponents⟩

end Stencil
