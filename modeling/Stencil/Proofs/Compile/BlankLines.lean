/-
Blank lines and line numbers do not influence what a source compiles to. Two sources with the same
non-blank lines have the same components, and their diagnostics pair off in order: each pair says
the same about the same line, under the number that the line has in its source. Only the message
about a bad indentation quotes the number.
-/
import Stencil.Proofs.Component.Renumbering

namespace Stencil

/-! ## Where diagnostics stand -/

/-- Every diagnostic stands at a non-blank line. -/
theorem line_of_mem_diagnostics {options : Options} {source : String} {d : Diagnostic}
    (h : d ∈ (compile options source).diagnostics) :
    ∃ line ∈ contentLines source, line.number = d.line := by
  unfold compile at h
  split at h
  · next e hparse =>
    obtain ⟨before, line, after, hlines, -, -, rfl⟩ := Outline.parse_eq_error_iff.mp hparse
    rw [List.mem_singleton.mp h]
    exact ⟨line, by simp [hlines], rfl⟩
  · next outline hparse =>
    obtain ⟨n, hn, line, hline, hnumber⟩ :=
      holds_of_mem_lower options (ascending_of_parse hparse) h
    refine ⟨line, ?_, hnumber⟩
    rw [← (Outline.parse_eq_ok_iff.mp hparse).1, Outline.lines_eq_flatMap]
    exact List.mem_flatMap.mpr ⟨n, hn, hline⟩

theorem diagnostics_compile {options : Options} {source : String} {outline : Outline}
    (h : Outline.parse options.dedent source = .ok outline) :
    (compile options source).diagnostics =
      outline.flatMap fun n => (lowerTopLevel options n).diagnostics := by
  simp only [compile, h]
  exact lower_diagnostics options (ascending_of_parse h)

/-! ## Sources with the same non-blank lines -/

/-- Two diagnostics that say the same about the same non-blank line of two sources, each under the
number that the line has in its source. A message about an indentation quotes that number. -/
structure Diagnostic.Corresponds (s t : String) (d e : Diagnostic) : Prop where
  kind : e.kind = d.kind
  severity : e.severity = d.severity
  message : d.kind ≠ .indentation → e.message = d.message
  line : ∃ i : Nat, (contentLines s)[i]?.map Line.number = some d.line ∧
    (contentLines t)[i]?.map Line.number = some e.line

theorem exists_renumber_of_nonBlankLines {s t : String} (h : nonBlankLines s = nonBlankLines t) :
    ∃ f, contentLines t = (contentLines s).map (Line.renumber f) := by
  refine exists_renumber (fun _ => faithful_of_mem_contentLines)
    (fun _ => faithful_of_mem_contentLines) (ascending_contentLines s) ?_
  rw [map_chars_contentLines, map_chars_contentLines, h]

section Renumbered

variable {s t : String} {f : Nat → Nat}
  (h : contentLines t = (contentLines s).map (Line.renumber f))
include h

/-- A diagnostic of the first source, and one that says the same at the new number of its line. -/
theorem corresponds_renumber {options : Options} {d : Diagnostic}
    (hd : d ∈ (compile options s).diagnostics) {e : Diagnostic} (hkind : e.kind = d.kind)
    (hmessage : d.kind ≠ .indentation → e.message = d.message) (hline : e.line = f d.line) :
    Diagnostic.Corresponds s t d e := by
  obtain ⟨line, hmem, hnumber⟩ := line_of_mem_diagnostics hd
  obtain ⟨i, hi⟩ := List.mem_iff_getElem?.mp hmem
  have hseverity : e.severity = d.severity := by
    rw [Diagnostic.severity, hkind, Diagnostic.severity]
  refine ⟨hkind, hseverity, hmessage, i, ?_, ?_⟩
  · rw [hi, Option.map_some, hnumber]
  · rw [h, List.getElem?_map, hi, hline, ← hnumber]
    rfl

theorem compile_renumber_ok {options : Options} {outline : Outline}
    (hparse : Outline.parse options.dedent s = .ok outline) :
    compile options t = ⟨(compile options s).components,
      (compile options s).diagnostics.map (Diagnostic.renumber f)⟩ := by
  have hother : Outline.parse options.dedent t = .ok (Outline.renumber f outline) := by
    rw [parse_renumber h, hparse]
    rfl
  have hlower := lower_renumber f options (ascending_of_parse hparse) (ascending_of_parse hother)
  simp only [compile, hparse, hother, hlower, optimize_renumber, map_emit_renumber]

theorem compile_renumber_error {options : Options} {e : IndentationError}
    (hparse : Outline.parse options.dedent s = .error e) :
    compile options s = ⟨[], [⟨.indentation, e.line, e.message⟩]⟩ ∧
      compile options t = ⟨[], [⟨.indentation, f e.line, (e.renumber f).message⟩]⟩ := by
  have hother : Outline.parse options.dedent t = .error (e.renumber f) := by
    rw [parse_renumber h, hparse]
    rfl
  constructor
  · simp only [compile, hparse]
  · simp only [compile, hother]
    rfl

end Renumbered

/-- **Blank lines and line numbers never influence the output.** Two sources with the same
non-blank lines compile to the same components, and their diagnostics correspond one to one, in
order. -/
theorem compile_blank_lines (options : Options) {s t : String}
    (h : nonBlankLines s = nonBlankLines t) :
    (compile options s).components = (compile options t).components ∧
      List.Forall₂ (Diagnostic.Corresponds s t) (compile options s).diagnostics
        (compile options t).diagnostics := by
  obtain ⟨f, hlines⟩ := exists_renumber_of_nonBlankLines h
  cases hparse : Outline.parse options.dedent s with
  | ok outline =>
    rw [compile_renumber_ok hlines hparse]
    refine ⟨rfl, List.forall₂_map_right_iff.mpr (List.forall₂_same.mpr fun d hd => ?_)⟩
    exact corresponds_renumber hlines hd rfl (fun _ => rfl) rfl
  | error e =>
    obtain ⟨hfirst, hsecond⟩ := compile_renumber_error hlines hparse
    have hmem : ⟨.indentation, e.line, e.message⟩ ∈ (compile options s).diagnostics := by
      rw [hfirst]
      exact List.mem_singleton_self _
    rw [hfirst, hsecond]
    refine ⟨rfl, .cons ?_ .nil⟩
    exact corresponds_renumber hlines hmem rfl (fun hkind => absurd rfl hkind) rfl

/-- A component with a warning and a fault, and one with lines below a call. -/
def denseSource : String :=
  "component A()\n\teach bad\ncomponent B\n\tHeader\n\t\tp Ignored\n"

def denseOutline : Outline :=
  [⟨⟨1, 0, "component A()"⟩, [⟨⟨2, 1, "each bad"⟩, []⟩]⟩,
    ⟨⟨3, 0, "component B"⟩, [⟨⟨4, 1, "Header"⟩, [⟨⟨5, 2, "p Ignored"⟩, []⟩]⟩]⟩]

/-- The same lines spread out. -/
def sparseSource : String :=
  "\ncomponent A()\n \t\n\teach bad\n\n\ncomponent B\n\tHeader\n\r\n\t\tp Ignored"

theorem compile_blank_lines_spread :
    nonBlankLines denseSource = nonBlankLines sparseSource ∧
      (compile {} denseSource).components = (compile {} sparseSource).components ∧
      (compile {} denseSource).diagnostics.map (fun d => (d.kind, d.line)) =
        [(.parenthesesStyle, 1), (.eachSyntax, 2), (.ignoredChildren, 4)] ∧
      List.Forall₂ (Diagnostic.Corresponds denseSource sparseSource)
        (compile {} denseSource).diagnostics (compile {} sparseSource).diagnostics := by
  have hsame : nonBlankLines denseSource = nonBlankLines sparseSource := by decide +kernel
  have hparse : Outline.parse .singleLevel denseSource = .ok denseOutline := rfl
  obtain ⟨hcomponents, hdiagnostics⟩ := compile_blank_lines {} hsame
  refine ⟨hsame, hcomponents, ?_, hdiagnostics⟩
  rw [diagnostics_compile hparse]
  decide +kernel

end Stencil
