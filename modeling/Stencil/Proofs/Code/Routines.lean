/-
The routines of a component line by line. Whatever a source holds, the bodies of its routines are
made of lines none of which is empty: no line feed of a template gets into a body except in a string
literal, where it is written as an escape. So there is no run of line feeds to collapse, and what
stands between the braces of a routine is its body with one unit of indentation before each line.
-/
import Stencil.Proofs.Code.BlankRuns
import Stencil.Proofs.Code.Blocks
import Stencil.Proofs.Dialect.Routines

namespace Stencil

open Text

/-! ## Code made of lines -/

namespace Code

/-- The code is lines, each with a line feed behind it; no line is empty or ends with a carriage
return. -/
structure IsCode (code : String) : Prop where
  terminated : code.toList = unlines (lines code.toList)
  isLine : ∀ l ∈ lines code.toList, IsLine l

theorem isCode_of_unlines {code : String} {ls : List (List Char)} (hcode : code.toList = unlines ls)
    (hls : ∀ l ∈ ls, IsLine l) : IsCode code := by
  have hlines : lines code.toList = ls := by
    rw [hcode]
    exact lines_unlines fun l hl => (hls l hl).toUnbroken
  constructor
  · rw [hlines]
    exact hcode
  · rw [hlines]
    exact hls

theorem head_unlines {ls : List (List Char)} (h : ∀ l ∈ ls, IsLine l) :
    (unlines ls).head? ≠ some '\n' := by
  cases ls with
  | nil => simp
  | cons l ls =>
    have hl := h l List.mem_cons_self
    obtain ⟨c, cs, rfl⟩ := List.exists_cons_of_ne_nil hl.ne_nil
    intro hhead
    have hc : c = '\n' := by simpa using hhead
    exact hl.no_feed (by simp [hc])

/-- No line feed follows another. -/
theorem collapse_unlines {ls : List (List Char)} (h : ∀ l ∈ ls, IsLine l) :
    collapse (unlines ls) = unlines ls := by
  induction ls with
  | nil => rfl
  | cons l ls ih =>
    rw [List.forall_mem_cons] at h
    have hfeed := h.1.no_feed
    have hline : collapse l = l := collapse_eq_self fun hrun => hfeed (hrun.subset (by simp))
    rw [unlines_cons, collapse_append fun hlast => absurd (List.mem_of_getLast? hlast) hfeed, hline,
      collapse_cons fun _ => head_unlines h.2, ih h.2]

theorem IsCode.collapseBlankRuns_eq {code : String} (h : IsCode code) :
    collapseBlankRuns code = code := by
  rw [collapseBlankRuns, h.terminated, collapse_unlines h.isLine, ← h.terminated,
    String.ofList_toList]

theorem Writer.toList_pushLines (texts : List String) : ∀ {w : Writer}, w.depth = 0 →
    (w.pushLines texts).code.toList = w.code.toList ++ unlines (texts.map String.toList) := by
  induction texts with
  | nil =>
    intro w _
    simp [Writer.pushLines]
  | cons text texts ih =>
    intro w hdepth
    rw [Writer.pushLines, List.foldl_cons]
    refine (ih (w := w.pushLine text) hdepth).trans ?_
    simp [Writer.toList_pushLine, hdepth, indentation]

end Code

open Code

namespace Dialect

theorem isCode_streamingBody {d : Dialect} (hd : d.Regular) {body : Instructions}
    (h : body.All Instruction.WellFormed) : IsCode (d.streamingBody body) := by
  obtain ⟨ls, hcode, hls, -⟩ := reaches_streamingBody hd fun i hi => (h i hi).oneLine
  exact isCode_of_unlines hcode hls

theorem isCode_bufferedBody {d : Dialect} (hd : d.Lined) {inlined? : Option Instruction}
    (h : ∀ i ∈ inlined?, i.WellFormed) {s : Signature} (hs : s.OneLine) :
    IsCode (d.bufferedBody inlined? s) := by
  obtain ⟨texts, hcode, htexts⟩ : ∃ texts : List String,
      d.bufferedBody inlined? s = (Writer.pushLines { unit := d.indentUnit } texts).code ∧
      ∀ text ∈ texts, IsLine text.toList := by
    cases inlined? with
    | none => exact ⟨d.pooledBody s, rfl, hd.pooled s hs⟩
    | some i => exact ⟨[d.returnStatement i], rfl, by simpa using hd.returned i (h i rfl)⟩
  have hunlines : (d.bufferedBody inlined? s).toList = unlines (texts.map String.toList) := by
    rw [hcode, Writer.toList_pushLines texts rfl]
    rfl
  refine isCode_of_unlines hunlines fun l hl => ?_
  obtain ⟨text, htext, rfl⟩ := List.mem_map.mp hl
  exact htexts text htext

theorem toList_indentBody (unit : String) {body : String} (h : IsCode body) :
    (indentBody unit body).toList = unlines ((lines body.toList).map (unit.toList ++ ·)) := by
  have hline : ∀ l ∈ lines body.toList,
      (if l.isEmpty then "\n" else unit ++ String.ofList l ++ "\n").toList =
        unit.toList ++ l ++ ['\n'] := by
    intro l hl
    have hne : l.isEmpty = false := by simpa using (h.isLine l hl).ne_nil
    simp [hne]
  rw [indentBody, String.toList_join, List.flatMap_map, unlines, List.flatMap_map]
  exact List.flatMap_congr hline

/-- Both routines by their lines: the line that opens the first, its body with a unit of
indentation before each line, the brace that closes it, an empty line, and the same for the
second. -/
def routineLines (unit first second : List Char) (buffered streaming : String) :
    List (List Char) :=
  (first ++ ['{']) :: (lines buffered.toList).map (unit ++ ·) ++ ['}'] :: [] ::
    (second ++ ['{']) :: (lines streaming.toList).map (unit ++ ·) ++ [['}']]

theorem lines_framed {unit first second buffered streaming : String} (hunit : '\n' ∉ unit.toList)
    (hfirst : '\n' ∉ first.toList) (hsecond : '\n' ∉ second.toList) (hbuffered : IsCode buffered)
    (hstreaming : IsCode streaming) :
    lines (framed unit first second buffered streaming).toList =
      routineLines unit.toList first.toList second.toList buffered streaming := by
  have hcode : (framed unit first second buffered streaming).toList =
      unlines (routineLines unit.toList first.toList second.toList buffered streaming) := by
    simp [framed, routine, routineLines, toList_indentBody unit hbuffered,
      toList_indentBody unit hstreaming, unlines_append]
  have hopening : ∀ {head : List Char}, '\n' ∉ head → Unbroken (head ++ ['{']) := fun hhead =>
    ⟨by simp [hhead], by simp⟩
  have hindented : ∀ {body : String}, IsCode body →
      ∀ l ∈ (lines body.toList).map (unit.toList ++ ·), Unbroken l := by
    intro body hbody l hl
    obtain ⟨l, hmem, rfl⟩ := List.mem_map.mp hl
    exact ((hbody.isLine l hmem).behind hunit).toUnbroken
  rw [hcode]
  refine lines_unlines ?_
  simp only [routineLines, List.forall_mem_append, List.forall_mem_cons]
  exact ⟨⟨⟨hopening hfirst, hindented hbuffered⟩, isLine_brace.toUnbroken, ⟨by simp, by simp⟩,
    hopening hsecond, hindented hstreaming⟩, isLine_brace.toUnbroken, by simp⟩

end Dialect

/-! ## Components -/

/-- What the routines of a component are written from fits into lines. -/
structure Component.Emittable (c : Component) : Prop where
  signature : c.signature.OneLine
  body : c.body.All Instruction.WellFormed

theorem Instructions.mem_walk_of_trivial? {body : Instructions} {i : Instruction}
    (h : trivial? body = some i) : i ∈ body.walk := by
  unfold trivial? at h
  split at h
  · cases h
  · next j =>
    cases h
    cases i <;> simp [walk, walkOne]
  · cases h

/-- An optimized component has the signature of a definition, under a name that its routines can
have. -/
theorem definition_of_mem_optimize {options : Options} {outline : Outline} {c : Component}
    (h : c ∈ optimize options (lower options outline).1) : ∃ node ∈ outline, ∃ text warnings,
      LineKind.ofText node.line.text = .component text ∧
      Signature.parse text = .ok (c.signature, warnings) ∧
      (options.dialect.routineNames c.signature.name).isSome = true := by
  obtain ⟨d, hd, heq⟩ := signature_of_mem_optimize h
  obtain ⟨node, hnode, hcomponent⟩ := mem_lower.mp hd
  obtain ⟨text, warnings, hkind, hparse, hnames, -⟩ := component_of_definition hcomponent
  rw [heq] at hparse hnames
  exact ⟨node, hnode, text, warnings, hkind, hparse, hnames⟩

theorem emittable_optimize (options : Options) {policy : DedentPolicy} {source : String}
    {outline : Outline} (h : Outline.parse policy source = .ok outline) :
    ∀ c ∈ optimize options (lower options outline).1, c.Emittable := by
  intro c hc
  obtain ⟨node, hnode, text, warnings, hkind, hparse, -⟩ := definition_of_mem_optimize hc
  have hfeed : '\n' ∉ text.toList := fun hmem =>
    feed_not_mem_outline h node.line (Outline.line_mem_lines hnode)
      (LineKind.subset_of_component hkind hmem)
  constructor
  · exact (Signature.parse_readFrom hparse).oneLine hfeed
  · exact wellFormed_optimize options (wellFormed_lower options h) c hc

theorem Options.regular_dialect {options : Options} (h : '\n' ∉ options.runtimePath.toList) :
    options.dialect.Regular := by
  unfold Options.dialect
  cases options.target with
  | rust => exact Dialect.regular_rust h
  | go => exact Dialect.regular_go

theorem Options.lined_dialect {options : Options} (h : '\n' ∉ options.runtimePath.toList) :
    options.dialect.Lined := by
  unfold Options.dialect
  cases options.target with
  | rust => exact Dialect.lined_rust h
  | go => exact Dialect.lined_go

section Emit

variable {options : Options} (hruntime : '\n' ∉ options.runtimePath.toList) {c : Component}
  (hc : c.Emittable)
include hruntime hc

theorem isCode_buffered : IsCode (options.dialect.bufferedBody
    (if options.inlineTrivial then Instructions.trivial? c.body else none) c.signature) := by
  refine Dialect.isCode_bufferedBody (Options.lined_dialect hruntime) (fun i hi => ?_) hc.signature
  split at hi
  · exact hc.body i (Instructions.mem_walk_of_trivial? hi)
  · cases hi

theorem isCode_streaming : IsCode (options.dialect.streamingBody c.body) :=
  Dialect.isCode_streamingBody (Options.regular_dialect hruntime) hc.body

/-- The bodies are as they were written, collapsed or not. -/
theorem bufferedBody_emit : (c.emit options).bufferedBody = options.dialect.bufferedBody
    (if options.inlineTrivial then Instructions.trivial? c.body else none) c.signature := by
  simp only [Component.emit]
  split
  · exact (isCode_buffered hruntime hc).collapseBlankRuns_eq
  · rfl

theorem streamingBody_emit :
    (c.emit options).streamingBody = options.dialect.streamingBody c.body := by
  simp only [Component.emit]
  split
  · exact (isCode_streaming hruntime hc).collapseBlankRuns_eq
  · rfl

/-- Collapsing changes nothing in a component. -/
theorem emit_collapse : c.emit { options with collapseBlankLines := true } =
    c.emit { options with collapseBlankLines := false } := by
  have hbuffered := (isCode_buffered hruntime hc).collapseBlankRuns_eq
  have hstreaming := (isCode_streaming hruntime hc).collapseBlankRuns_eq
  have hdialect : ∀ b, ({ options with collapseBlankLines := b } : Options).dialect =
      options.dialect := fun _ => rfl
  simp only [Component.emit, hdialect, if_true, Bool.false_eq_true, if_false, hbuffered, hstreaming]

/-- Both bodies stand in the code, each line behind a unit of indentation. -/
theorem lines_code_emit : ∃ first second, lines (c.emit options).code.toList =
    Dialect.routineLines options.dialect.indentUnit.toList first second
      (c.emit options).bufferedBody (c.emit options).streamingBody := by
  obtain ⟨first, second, hfirst, hsecond, hframed⟩ :=
    (Options.lined_dialect hruntime).framed c.signature hc.signature
  have hcode : (c.emit options).code = Dialect.framed options.dialect.indentUnit first second
      (c.emit options).bufferedBody (c.emit options).streamingBody := by
    rw [← hframed]
    rfl
  refine ⟨first.toList, second.toList, ?_⟩
  rw [hcode, bufferedBody_emit hruntime hc, streamingBody_emit hruntime hc]
  exact Dialect.lines_framed (Options.regular_dialect hruntime).unit.no_feed hfirst hsecond
    (isCode_buffered hruntime hc) (isCode_streaming hruntime hc)

end Emit

/-- **Collapsing blank lines changes nothing, and the routines hold their bodies as they are.**
Unless the path of the runtime holds a line feed, a source compiles to the same whether or not blank
lines are collapsed; every body is code made of lines, so that collapsing leaves it alone; and the
lines of each component's code are those of its bodies, indented by one unit, between the lines that
open and close the routines. -/
theorem collapse_cosmetic {options : Options} (hruntime : '\n' ∉ options.runtimePath.toList)
    (source : String) :
    compile { options with collapseBlankLines := true } source =
        compile { options with collapseBlankLines := false } source ∧
      ∀ c ∈ (compile options source).components,
        IsCode c.bufferedBody ∧ collapseBlankRuns c.bufferedBody = c.bufferedBody ∧
        IsCode c.streamingBody ∧ collapseBlankRuns c.streamingBody = c.streamingBody ∧
        ∃ first second, lines c.code.toList =
          Dialect.routineLines options.dialect.indentUnit.toList first second c.bufferedBody
            c.streamingBody := by
  cases hparse : Outline.parse options.dedent source with
  | error e => simp [compile, hparse]
  | ok outline =>
    -- What is lowered and optimized does not depend on collapsing; what is written is lines.
    have hemittable := emittable_optimize options hparse
    constructor
    · have hlower : ∀ b, lower { options with collapseBlankLines := b } outline =
          lower options outline := fun b => lower_congr (by rfl) (by rfl) (by rfl) outline
      have hoptimize : ∀ b, optimize { options with collapseBlankLines := b } =
          optimize options := fun b => rfl
      have hemit : ∀ c ∈ optimize options (lower options outline).1,
          c.emit { options with collapseBlankLines := true } =
            c.emit { options with collapseBlankLines := false } := fun c hc =>
        emit_collapse hruntime (hemittable c hc)
      simp only [compile, hparse, hlower, hoptimize, List.map_congr_left hemit]
    · rw [components_compile hparse]
      intro d hd
      obtain ⟨c, hmem, rfl⟩ := List.mem_map.mp hd
      have hc := hemittable c hmem
      have hbuffered : IsCode (c.emit options).bufferedBody := by
        rw [bufferedBody_emit hruntime hc]
        exact isCode_buffered hruntime hc
      have hstreaming : IsCode (c.emit options).streamingBody := by
        rw [streamingBody_emit hruntime hc]
        exact isCode_streaming hruntime hc
      exact ⟨hbuffered, hbuffered.collapseBlankRuns_eq, hstreaming,
        hstreaming.collapseBlankRuns_eq, lines_code_emit hruntime hc⟩

/-- A title with two line breaks, which the literal that writes it keeps as escapes. -/
def titleSource : String := "component Title(s string)\n\tp(title=\"a\\n\\nb\")= s\n"

def titleStreaming : String :=
  "_b.push_str(\"<p title='a\\n\\nb'>\");\n::sprig_sap::write_escaped(_b, &(s));\n"
    ++ "_b.push_str(\"</p>\");\n"

theorem collapse_cosmetic_title :
    '\n' ∉ ({} : Options).runtimePath.toList ∧
      compile { collapseBlankLines := true } titleSource =
        compile { collapseBlankLines := false } titleSource ∧
      ∃ c, (compile {} titleSource).components = [c] ∧ c.streamingBody = titleStreaming ∧
        IsCode c.streamingBody ∧ ∃ first second, lines c.code.toList =
          Dialect.routineLines "    ".toList first second c.bufferedBody titleStreaming := by
  have hruntime : '\n' ∉ ({} : Options).runtimePath.toList := by decide
  have hbodies : (compile {} titleSource).components.map (·.streamingBody) = [titleStreaming] := by
    decide +kernel
  obtain ⟨c, hcomponents, hstreaming⟩ := List.map_eq_singleton_iff.mp hbodies
  obtain ⟨hcollapse, hall⟩ := collapse_cosmetic hruntime titleSource
  obtain ⟨-, -, hcode, -, hlines⟩ := hall c (by rw [hcomponents]; exact List.mem_singleton_self c)
  rw [hstreaming] at hlines
  exact ⟨hruntime, hcollapse, c, hcomponents, hstreaming, hcode, hlines⟩

end Stencil
