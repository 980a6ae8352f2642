/-
Templates print, read back and lower to what they say. A template is a statement with the
templates nested below it, a definition a signature with a body of templates. A source is printed
from definitions, one line for each signature and each statement, indented by its depth.

`lower_parse_print`: the source of definitions that can be printed is an outline that is lowered
to the components of the definitions, each on its line, and to no diagnostic. The expected body
needs neither text nor outline: it is made by recursion on the template.
-/
import Stencil.Proofs.Outline.Draft
import Stencil.Proofs.Signature.Printing
import Stencil.Proofs.Template.Statement

namespace Stencil

open Text

/-- A statement with the templates nested below it. -/
structure Template where
  statement : Statement
  children : List Template

/-- A component as it is defined: a signature and the templates below it. -/
structure Definition where
  signature : Signature
  body : List Template

/-- A text without line breaks. -/
def OneLine (cs : List Char) : Prop := '\n' ∉ cs ∧ '\r' ∉ cs

instance (cs : List Char) : Decidable (OneLine cs) := inferInstanceAs (Decidable (_ ∧ _))

theorem OneLine.isLine {cs : List Char} (h : OneLine cs)
    (hhead : ∃ c ds, cs = c :: ds ∧ isBlank c = false) : Draft.IsLine (String.ofList cs) := by
  obtain ⟨c, ds, rfl, hc⟩ := hhead
  refine ⟨?_, ?_, ?_, ?_⟩ <;> rw [String.toList_ofList]
  · rw [allBlank, List.all_cons, hc, Bool.false_and]
  · intro htab
    cases htab
    revert hc
    decide
  · exact h.1
  · exact h.2

namespace Template

mutual

/-- The texts of a template. -/
def draft : Template → Draft
  | ⟨s, children⟩ => ⟨String.ofList s.print, drafts children⟩

def drafts : List Template → List Draft
  | [] => []
  | t :: ts => t.draft :: drafts ts

end

mutual

/-- The instructions that a template stands for. -/
def lower (options : Options) : Template → Instructions
  | ⟨s, children⟩ => s.lower options (lowerAll options children)

def lowerAll (options : Options) : List Template → Instructions
  | [] => []
  | t :: ts => t.lower options ++ lowerAll options ts

end

mutual

/-- Every statement can be printed on one line, and no leaf has templates below it. -/
def Printable : Template → Prop
  | ⟨s, children⟩ => s.Printable ∧ OneLine s.print ∧ (s.isLeaf = true → children.isEmpty = true) ∧
      AllPrintable children

def AllPrintable : List Template → Prop
  | [] => True
  | t :: ts => t.Printable ∧ AllPrintable ts

end

mutual

instance decidablePrintable : ∀ t : Template, Decidable t.Printable
  | ⟨_, children⟩ =>
    have := decidableAllPrintable children
    inferInstanceAs (Decidable (_ ∧ _ ∧ (_ = _ → _ = _) ∧ AllPrintable children))

instance decidableAllPrintable : ∀ ts : List Template, Decidable (AllPrintable ts)
  | [] => inferInstanceAs (Decidable True)
  | t :: ts =>
    have := decidablePrintable t
    have := decidableAllPrintable ts
    inferInstanceAs (Decidable (t.Printable ∧ AllPrintable ts))

end

/-! ## Lines and instructions of a template -/

mutual

theorem isLine_rows : ∀ (t : Template), t.Printable → ∀ depth,
    ∀ row ∈ t.draft.rows depth, Draft.IsLine row.2
  | ⟨s, children⟩, ⟨hs, hline, _, hchildren⟩, depth => by
    rw [draft, Draft.rows, List.forall_mem_cons]
    exact ⟨hline.isLine (Statement.head_print hs), isLine_rowsAll children hchildren (depth + 1)⟩

theorem isLine_rowsAll : ∀ (ts : List Template), AllPrintable ts → ∀ depth,
    ∀ row ∈ Draft.rowsAll depth (drafts ts), Draft.IsLine row.2
  | [], _, _ => by simp [drafts, Draft.rowsAll]
  | t :: ts, ⟨ht, hts⟩, depth => by
    rw [drafts, Draft.rowsAll, List.forall_mem_append]
    exact ⟨isLine_rows t ht depth, isLine_rowsAll ts hts depth⟩

end

mutual

/-- **The node of a printed template is lowered to what the template stands for.** -/
theorem lowerNode_draft (options : Options) : ∀ (t : Template), t.Printable → ∀ number indent,
    lowerNode options (t.draft.node number indent) = .ok (t.lower options)
  | ⟨s, children⟩, ⟨hs, _, hleaf, hchildren⟩, number, indent => by
    have hnodes : s.isLeaf = true →
        Draft.nodes (number + 1) (indent + 1) (drafts children) = [] := by
      intro h
      rw [List.isEmpty_iff.mp (hleaf h)]
      rfl
    rw [draft, Draft.node, lower]
    exact Statement.lowerNode_print hs hnodes
      (lowerNodes_drafts options children hchildren (number + 1) (indent + 1))

theorem lowerNodes_drafts (options : Options) : ∀ (ts : List Template), AllPrintable ts →
    ∀ number indent,
      lowerNodes options (Draft.nodes number indent (drafts ts)) = .ok (lowerAll options ts)
  | [], _, _, _ => rfl
  | t :: ts, ⟨ht, hts⟩, number, indent => by
    rw [drafts, Draft.nodes, lowerNodes, lowerNode_draft options t ht, Lowered.ok_bind,
      lowerNodes_drafts options ts hts, Lowered.ok_bind]
    rfl

end

end Template

namespace Definition

/-- The texts of a definition. -/
def draft (d : Definition) : Draft :=
  ⟨String.ofList ("component".toList ++ ' ' :: d.signature.print), Template.drafts d.body⟩

/-- The source that definitions stand for. -/
def print (ds : List Definition) : String := Draft.print (ds.map draft)

/-- The depths of the lines of the source in order. -/
def depths (ds : List Definition) : List Nat := (Draft.rowsAll 0 (ds.map draft)).map (·.1)

/-- Definitions whose lines are read back, with a name that the dialect has routines for. -/
@[mk_iff]
structure Printable (options : Options) (d : Definition) : Prop where
  signature : d.signature.Printable
  line : OneLine d.signature.print
  routine : (options.dialect.routineNames d.signature.name).isSome = true
  body : Template.AllPrintable d.body

instance decidablePrintable (options : Options) (d : Definition) :
    Decidable (d.Printable options) :=
  decidable_of_iff _ (printable_iff options d).symm

/-- The components that definitions stand for when the first one starts on line `number`. -/
def components (options : Options) : Nat → List Definition → List Component
  | _, [] => []
  | number, d :: ds =>
    ⟨d.signature, number, Template.lowerAll options d.body⟩ ::
      components options (number + (d.draft.rows 0).length) ds

theorem isLine_draft {options : Options} {d : Definition} (h : d.Printable options) :
    ∀ row ∈ d.draft.rows 0, Draft.IsLine row.2 := by
  have hline : OneLine ("component".toList ++ ' ' :: d.signature.print) := by
    refine ⟨?_, ?_⟩ <;> rw [List.mem_append, List.mem_cons]
    · rintro (hword | hspace | hsignature)
      · exact absurd hword (by decide)
      · exact absurd hspace (by decide)
      · exact h.line.1 hsignature
    · rintro (hword | hspace | hsignature)
      · exact absurd hword (by decide)
      · exact absurd hspace (by decide)
      · exact h.line.2 hsignature
  rw [draft, Draft.rows, List.forall_mem_cons]
  exact ⟨hline.isLine ⟨'c', _, rfl, by decide⟩, Template.isLine_rowsAll d.body h.body 1⟩

theorem isLine_drafts {options : Options} {ds : List Definition}
    (h : ∀ d ∈ ds, d.Printable options) :
    ∀ row ∈ Draft.rowsAll 0 (ds.map draft), Draft.IsLine row.2 := by
  induction ds with
  | nil => simp [Draft.rowsAll]
  | cons d ds ih =>
    rw [List.forall_mem_cons] at h
    rw [List.map_cons, Draft.rowsAll, List.forall_mem_append]
    exact ⟨isLine_draft h.1, ih h.2⟩

/-- The node of a printed definition is lowered to its component. -/
theorem lowerTopLevel_draft {options : Options} {d : Definition} (h : d.Printable options)
    (number : Nat) : lowerTopLevel options (d.draft.node number 0) =
      .ok (some ⟨d.signature, number, Template.lowerAll options d.body⟩) := by
  have hbody := Template.lowerNodes_drafts options d.body h.body (number + 1) 1
  have hroutine : (options.dialect.routineNames d.signature.name).isNone = false := by
    rw [← Option.not_isSome, h.routine]
    rfl
  have hsignature := Signature.parse_print h.signature
  have htrim := (Signature.trimmed_print h.signature).trim_eq
  rw [draft, Draft.node]
  simp only [lowerTopLevel, LineKind.ofText_component, htrim, lowerComponent, hsignature,
    Lowered.read, Lowered.ok_bind, hroutine, Nat.zero_add, hbody, Bool.false_eq_true, if_false]
  rfl

theorem map_lowerTopLevel_drafts {options : Options} {ds : List Definition}
    (h : ∀ d ∈ ds, d.Printable options) : ∀ number,
      (Draft.nodes number 0 (ds.map draft)).map (lowerTopLevel options) =
        (components options number ds).map fun c => .ok (some c) := by
  induction ds with
  | nil => exact fun _ => rfl
  | cons d ds ih =>
    intro number
    rw [List.forall_mem_cons] at h
    rw [List.map_cons, Draft.nodes, List.map_cons, lowerTopLevel_draft h.1, ih h.2, components,
      List.map_cons]

/-- **Printed definitions are read back and lowered to their components.** A policy that lets a
line close one level only needs a source in which no line closes more. -/
theorem lower_parse_print {options : Options} {ds : List Definition}
    (h : ∀ d ∈ ds, d.Printable options)
    (hdedent : options.dedent = .singleLevel → (depths ds).IsChain fun i j => i ≤ j + 1) :
    ∃ outline, Outline.parse options.dedent (print ds) = .ok outline ∧
      Stencil.lower options outline = (components options 1 ds, []) := by
  refine ⟨Draft.nodes 1 0 (ds.map draft), Draft.parse_print (isLine_drafts h) hdedent, ?_⟩
  have houtcomes := map_lowerTopLevel_drafts h 1
  have hcomponents : ((components options 1 ds).map fun c => Lowered.ok (some c)).filterMap
      (·.component?) = components options 1 ds := by
    rw [List.filterMap_map]
    exact List.filterMap_some
  have hdiagnostics : ((components options 1 ds).map fun c => Lowered.ok (some c)).flatMap
      (·.diagnostics) = [] := by
    rw [List.flatMap_eq_nil_iff]
    intro x hx
    obtain ⟨c, -, rfl⟩ := List.mem_map.mp hx
    rfl
  simp only [Stencil.lower, houtcomes, hcomponents, hdiagnostics, List.mergeSort_nil]

/-- Two definitions with every kind of statement. -/
def gallery : List Definition :=
  [⟨⟨"Page", [⟨"title", "title string"⟩, ⟨"items", "mut items []string"⟩]⟩,
    [⟨.comment " head", []⟩,
      ⟨.control "if title != \"\"",
        [⟨.element
            { tag := "h1", id := some (.literal "a, \"b\""), classes := ["big", "x-2"],
              explicitClass := some (.expression "cls" true),
              attributes := [("data-n", .expression "f(1, ')')" false), ("hidden", .boolean)],
              content := .text "Hi = !" } false, []⟩,
          ⟨.embed "raw(title)", []⟩]⟩,
      ⟨.control "else", [⟨.element { tag := "p", content := .expression "title" false } true, []⟩]⟩,
      ⟨.each "item" "items[1:]", [⟨.element { tag := "li" } false, []⟩]⟩,
      ⟨.call "Footer" (some "\"x)\", 1"), []⟩]⟩,
    ⟨⟨"Footer", []⟩,
      [⟨.element { tag := "html" } false,
        [⟨.element
            { tag := "img", id := some .boolean, classes := ["wide"],
              explicitClass := some (.literal "new") } false, []⟩,
          ⟨.call "Page" none, []⟩]⟩]⟩]

/-- The source of `gallery`. -/
def gallerySource : String :=
  "component Page(title string, mut items []string)\n" ++
  "\t// head\n" ++
  "\tif title != \"\"\n" ++
  "\t\th1.big.x-2(id=\"a, \\\"b\\\"\", class=cls, data-n!=f(1, ')'), hidden) Hi = !\n" ++
  "\t\tgo:raw(title)\n" ++
  "\telse\n" ++
  "\t\tp()!=title\n" ++
  "\teach item in items[1:]\n" ++
  "\t\tli\n" ++
  "\tFooter(\"x)\", 1)\n" ++
  "component Footer\n" ++
  "\thtml\n" ++
  "\t\timg.wide(id, class=\"new\")\n" ++
  "\t\tPage\n"

/-- What `gallery` is lowered to. -/
def galleryComponents : List Component :=
  [⟨⟨"Page", [⟨"title", "title string"⟩, ⟨"items", "mut items []string"⟩]⟩, 1,
    [.control (.raw "if title != \"\"")
        [.literal "<h1 id='a, \"b\"' class='big x-2 ", .expression "cls" true,
          .literal "' data-n='", .expression "f(1, ')')" false, .literal "' hidden>",
          .literal "Hi = !", .literal "</h1>", .expression "raw(title)" false],
      .control (.raw "else") [.literal "<p>", .expression "title" false, .literal "</p>"],
      .control (.each "item" "items[1:]") [.literal "<li>", .literal "</li>"],
      .call "Footer" "\"x)\", 1"]⟩,
    ⟨⟨"Footer", []⟩, 11,
      [.literal "<!DOCTYPE html>", .literal "<html>", .literal "<img id class='wide new'>",
        .call "Page" "", .literal "</html>"]⟩]

theorem lower_parse_print_gallery :
    (∀ d ∈ gallery, d.Printable {}) ∧ (depths gallery).IsChain (fun i j => i ≤ j + 1) ∧
      print gallery = gallerySource ∧
      ∃ outline, Outline.parse .singleLevel gallerySource = .ok outline ∧
        Stencil.lower {} outline = (galleryComponents, []) := by
  have hprintable : ∀ d ∈ gallery, d.Printable {} := by decide +kernel
  have hdepths : (depths gallery).IsChain fun i j => i ≤ j + 1 := by decide +kernel
  have hsource : print gallery = gallerySource := by decide +kernel
  have hcomponents : components {} 1 gallery = galleryComponents := rfl
  have hlower := lower_parse_print hprintable fun _ => hdepths
  rw [hsource, hcomponents] at hlower
  exact ⟨hprintable, hdepths, hsource, hlower⟩

end Definition

end Stencil
