/-
Joining sources. A text of whole lines has its lines to itself, whatever follows it, so the
non-blank lines of two such sources are those of the first and those of the second further down
(`contentLines_append`). If both outlines are read, the outline of the joined source is the first
followed by the second (`parse_append`): what the first leaves open is closed by the first line of
the second, which is not indented. The stricter policy allows that when the last line of the first
is indented by one tab at most.
-/
import Stencil.Proofs.Outline.Renumbering
import Stencil.Proofs.Text.Lines

namespace Stencil

/-- The number of lines of a source, blank ones included. -/
def lineCount (source : String) : Nat := (Text.lines source.toList).length

/-! ## Joined sources -/

/-- **The non-blank lines of a joined source** are those of its parts, the second's further
down. -/
theorem contentLines_append {s : String} (h : Text.WholeLines s.toList) (t : String) :
    contentLines (s ++ t) =
      contentLines s ++ (contentLines t).map (Line.renumber (· + lineCount s)) := by
  rw [contentLines_eq, String.toList_append, Text.lines_append h, contentFrom_append,
    contentFrom_add]
  rfl

theorem singleDedents_append {as bs : List Line} (ha : Outline.SingleDedents as)
    (hb : Outline.SingleDedents bs) (h : ∀ line ∈ as.getLast?, line.indent ≤ 1) :
    Outline.SingleDedents (as ++ bs) := by
  unfold Outline.SingleDedents at *
  rw [List.map_append, List.isChain_append]
  refine ⟨ha, hb, fun i hi j _ => ?_⟩
  rw [List.getLast?_map, Option.mem_def, Option.map_eq_some_iff] at hi
  obtain ⟨line, hline, rfl⟩ := hi
  have := h line hline
  omega

/-- **The outline of a joined source is the outline of the first followed by that of the second.**
Under the stricter policy the first may leave two lines open at most. -/
theorem parse_append {policy : DedentPolicy} {s t : String} {o p : Outline}
    (hend : Text.WholeLines s.toList) (ho : Outline.parse policy s = .ok o)
    (hp : Outline.parse policy t = .ok p)
    (hlast : policy = .singleLevel → ∀ line ∈ (contentLines s).getLast?, line.indent ≤ 1) :
    Outline.parse policy (s ++ t) = .ok (o ++ Outline.renumber (· + lineCount s) p) := by
  obtain ⟨holines, hoindented, hodedents⟩ := Outline.parse_eq_ok_iff.mp ho
  obtain ⟨hplines, hpindented, hpdedents⟩ := Outline.parse_eq_ok_iff.mp hp
  rw [Outline.parse_eq_ok_iff, contentLines_append hend]
  refine ⟨?_, ?_, fun hpolicy => ?_⟩
  · rw [Outline.lines_append, Outline.lines_renumber, holines, hplines]
  · rw [Outline.indentedBy_iff] at hoindented ⊢
    intro n hn
    rcases List.mem_append.mp hn with hn | hn
    · exact hoindented n hn
    · exact Outline.indentedBy_iff.mp (Outline.indentedBy_renumber _ p hpindented) n hn
  · refine singleDedents_append (hodedents hpolicy) ?_ (hlast hpolicy)
    have := hpdedents hpolicy
    unfold Outline.SingleDedents at *
    rwa [map_indent_renumber]

end Stencil
