/-
Lowering does not depend on where lines stand: further down, the same lines give the same
components and the same diagnostics further down (`lower_further_down`). Together with the order of
the diagnostics this makes lowering a homomorphism: a joined source gives the components of the
first part and then those of the second, and its diagnostics likewise.
-/
import Stencil.Proofs.Component.Renumbering
import Stencil.Proofs.Outline.Joining

namespace Stencil

/-! ## Joined outlines -/

/-- The same lines further down. -/
theorem lower_further_down (options : Options) {outline : Outline}
    (h : Ascending (Outline.lines outline)) (n : Nat) :
    lower options (Outline.renumber (· + n) outline) =
      ((lower options outline).1.map (Component.renumber (· + n)),
        (lower options outline).2.map (Diagnostic.renumber (· + n))) := by
  refine lower_renumber (· + n) options h ?_
  rw [Outline.lines_renumber]
  exact List.pairwise_map.mpr (h.imp fun hlt => Nat.add_lt_add_right hlt n)

theorem lower_append (options : Options) {o p : Outline}
    (h : Ascending (Outline.lines (o ++ p))) :
    lower options (o ++ p) =
      ((lower options o).1 ++ (lower options p).1, (lower options o).2 ++ (lower options p).2) := by
  have hlines := h
  rw [Outline.lines_append] at hlines
  obtain ⟨ho, hp, -⟩ := List.pairwise_append.mp hlines
  refine Prod.ext ?_ ?_
  · rw [lower_components, lower_components, lower_components, List.flatMap_append]
  · rw [lower_diagnostics options h, lower_diagnostics options ho, lower_diagnostics options hp,
      List.flatMap_append]

/-- **Lowering is a homomorphism on sources.** If a source that ends its last line and another one
are both read, so are the two joined, and they give the components and the diagnostics of the
first followed by those of the second, as many lines further down as the first has. -/
theorem lower_joined (options : Options) {s t : String} {o p : Outline}
    (hend : s = "" ∨ s.toList.getLast? = some '\n')
    (ho : Outline.parse options.dedent s = .ok o) (hp : Outline.parse options.dedent t = .ok p)
    (hlast : options.dedent = .singleLevel →
      ∀ line ∈ (contentLines s).getLast?, line.indent ≤ 1) :
    ∃ joined, Outline.parse options.dedent (s ++ t) = .ok joined ∧
      lower options joined =
        ((lower options o).1 ++ (lower options p).1.map (Component.renumber (· + lineCount s)),
          (lower options o).2 ++
            (lower options p).2.map (Diagnostic.renumber (· + lineCount s))) := by
  have hend : Text.WholeLines s.toList := hend.imp (fun h => by rw [h, String.toList_empty]) id
  have hparse := parse_append hend ho hp hlast
  refine ⟨_, hparse, ?_⟩
  rw [lower_append options (ascending_of_parse hparse),
    lower_further_down options (ascending_of_parse hp)]

/-- A component with a fault, and a blank line. -/
def faultySource : String := "component A\n\teach items\n\n"

def faultyOutline : Outline := [⟨⟨1, 0, "component A"⟩, [⟨⟨2, 1, "each items"⟩, []⟩]⟩]

/-- A component that is warned about. -/
def oddSource : String := "component B()\n\tp Hi\n"

def oddOutline : Outline := [⟨⟨1, 0, "component B()"⟩, [⟨⟨2, 1, "p Hi"⟩, []⟩]⟩]

theorem lower_joined_faulty :
    Outline.parse .singleLevel faultySource = .ok faultyOutline ∧
      Outline.parse .singleLevel oddSource = .ok oddOutline ∧
      (∀ line ∈ (contentLines faultySource).getLast?, line.indent ≤ 1) ∧
      ∃ joined, Outline.parse .singleLevel (faultySource ++ oddSource) = .ok joined ∧
        (lower {} joined).1.map (fun c => (c.signature.name, c.line)) = [("B", 4)] ∧
        (lower {} joined).2.map (fun d => (d.kind, d.line)) =
          [(.eachSyntax, 2), (.parenthesesStyle, 4)] := by
  have ho : Outline.parse .singleLevel faultySource = .ok faultyOutline := rfl
  have hp : Outline.parse .singleLevel oddSource = .ok oddOutline := rfl
  have hlast : ∀ line ∈ (contentLines faultySource).getLast?, line.indent ≤ 1 := by decide +kernel
  obtain ⟨joined, hjoined, hlower⟩ := lower_joined {} (.inr (by decide +kernel)) ho hp fun _ => hlast
  refine ⟨ho, hp, hlast, joined, hjoined, ?_, ?_⟩
  · rw [hlower, lower_components, lower_components]
    decide +kernel
  · rw [hlower, lower_diagnostics {} (ascending_of_parse ho),
      lower_diagnostics {} (ascending_of_parse hp)]
    decide +kernel

end Stencil
