/-
Well-formed instructions. A text that is written is not empty; an expression, a loop variable and a
collection are trimmed and not empty; a host-language header starts with the keyword of a block and
ends without blanks; a call names a component by an identifier with an ASCII capital in front. None
of these texts, except those that are written, holds a line feed.

Every line gives well-formed instructions (`Line.Gives.wellFormed`), hence every body that was
lowered is made of them. The optimizer keeps effects and adds no call, and it leaves no empty text,
so its bodies are made of them too.
-/
import Stencil.Proofs.Component.Provenance
import Stencil.Proofs.Dialect.Statements
import Stencil.Proofs.Inlining.FixedPoint
import Stencil.Proofs.Instruction.Effects
import Stencil.Proofs.LineKind.Forms

namespace Stencil

open Text

/-- A text of one line that is not empty and has no blanks at its ends. -/
structure IsPhrase (text : String) : Prop where
  ne_empty : text ≠ ""
  trimmed : Trimmed text.toList
  no_feed : '\n' ∉ text.toList

def Header.WellFormed : Header → Prop
  | raw text =>
    (∀ c ∈ text.toList.getLast?, isBlank c = false) ∧
      LineKind.keyword text ∈ ["if", "else", "for"] ∧ '\n' ∉ text.toList
  | each binding iterable => IsPhrase binding ∧ IsPhrase iterable

/-- What is required of an instruction, apart from the body it may have. -/
def Instruction.WellFormed : Instruction → Prop
  | literal text => text ≠ ""
  | expression expr _ => IsPhrase expr
  | control header _ => header.WellFormed
  | call name args =>
    isIdentifier name.toList = true ∧ name.toList.head?.any Char.isUpper = true ∧
      Trimmed args.toList ∧ '\n' ∉ name.toList ∧ '\n' ∉ args.toList

/-- The texts of a well-formed instruction fit into one line. -/
theorem Instruction.WellFormed.oneLine {i : Instruction} (h : i.WellFormed) : i.OneLine := by
  cases i with
  | literal text => trivial
  | expression expr escape => exact h.no_feed
  | control header body =>
    cases header with
    | raw text => exact ⟨h.2.2, h.2.1⟩
    | each binding iterable => exact ⟨h.1.no_feed, h.2.no_feed⟩
  | call name args => exact h.2.2.2

/-! ## What lines give -/

theorem ReadFrom.isPhrase {source : List Char} {expr : String} {escape : Bool}
    (h : ReadFrom source expr escape) (hfeed : '\n' ∉ source) : IsPhrase expr :=
  ⟨h.ne_empty, h.trimmed, fun hmem => hfeed (h.subset hmem)⟩

theorem isPhrase_trim {cs : List Char} (hblank : allBlank cs = false) (hfeed : '\n' ∉ cs) :
    IsPhrase (String.ofList (trim cs)) := by
  have hread : ReadFrom cs (String.ofList (trim cs)) true :=
    readFrom_trim cs (trim_ne_nil hblank) (List.Subset.refl cs) (by simp)
  exact hread.isPhrase hfeed

/-- Of the characters of identifiers, the uppercase ones are the ASCII capitals. -/
theorem isUpper_of_isUppercase {c : Char} (hupper : isUppercase c = true)
    (hchar : isIdentifierChar c = true) : c.isUpper = true := by
  rwa [isUppercase, if_pos (code_lt_of_isIdentifierChar hchar)] at hupper

theorem Header.wellFormed_ofClause {clause : String} {header : Header}
    (h : Header.ofClause clause = .ok header) (hfeed : '\n' ∉ clause.toList) :
    header.WellFormed := by
  obtain ⟨before, after, hclause, hbefore, hafter, rfl⟩ := Header.ofClause_eq_ok h
  rw [hclause] at hfeed
  simp only [List.mem_append, List.mem_cons, not_or] at hfeed
  exact ⟨isPhrase_trim hbefore hfeed.1, isPhrase_trim hafter hfeed.2.2.2.2.2⟩

theorem Instruction.wellFormed_ofEmbedded {expr : String} {i : Instruction}
    (h : Instruction.ofEmbedded expr = .ok i) (hfeed : '\n' ∉ expr.toList) : i.WellFormed := by
  obtain ⟨hblank, rfl⟩ := Instruction.ofEmbedded_eq_ok h
  exact isPhrase_trim hblank hfeed

/-- A line that starts with an uppercase letter and is read as a call starts with an ASCII
capital: no name starts with any other, and a name that is empty is followed by nothing. -/
theorem Instruction.wellFormed_ofCall {text : String} {i : Instruction}
    (h : Instruction.ofCall text = .ok i) (hupper : text.toList.head?.any isUppercase = true)
    (hfeed : '\n' ∉ text.toList) : i.WellFormed := by
  obtain ⟨args, rfl, hargs, hparen⟩ := Instruction.ofCall_eq_call h
  -- The letter in front is no blank, so it is still there when the line has been trimmed.
  obtain ⟨c, cs, htext, hc⟩ : ∃ c cs, trimEnd text.toList = c :: cs ∧ isUppercase c = true := by
    cases htext : text.toList with
    | nil => simp [htext] at hupper
    | cons c cs =>
      have hc : isUppercase c = true := by simpa [htext] using hupper
      have hblank : ∀ d ∈ [c], isBlank d = false := by
        intro d hd
        rw [List.mem_singleton.mp hd]
        exact isBlank_eq_false_of_class (by decide +kernel) hc
      exact ⟨c, trimEnd cs, trimEnd_append hblank cs, hc⟩
  rw [htext] at hparen ⊢
  have hchar : isIdentifierChar c = true := by
    -- Otherwise the name is empty, and the letter is the parenthesis that follows the name.
    by_contra hnot
    rw [List.dropWhile_cons_of_neg hnot] at hparen
    rw [hparen c rfl] at hc
    exact absurd hc (by decide)
  have hname : (String.ofList ((c :: cs).takeWhile isIdentifierChar)).toList =
      c :: cs.takeWhile isIdentifierChar := by
    rw [String.toList_ofList, List.takeWhile_cons_of_pos hchar]
  have hcapital : c.isUpper = true := isUpper_of_isUppercase hc hchar
  refine ⟨?_, ?_, ?_, ?_, ?_⟩
  · rw [hname]
    have hrun : (cs.takeWhile isIdentifierChar).all isIdentifierChar = true :=
      List.all_eq_true.mpr fun d hd => List.mem_takeWhile_imp hd
    have halpha : c.isAlpha = true := by
      show (c.isUpper || c.isLower) = true
      rw [hcapital, Bool.true_or]
    simp [isIdentifier, halpha, hrun]
  · rw [hname]
    exact hcapital
  · rw [String.toList_ofList]
    exact trimmed_trim args
  · intro hmem
    rw [String.toList_ofList, ← htext] at hmem
    exact hfeed ((trimEnd_initial _).subset ((List.takeWhile_prefix _).subset hmem))
  · rw [String.toList_ofList]
    exact fun hmem => hfeed (hargs (trim_subset args hmem))

/-- **A line gives well-formed instructions.** -/
theorem Line.Gives.wellFormed {line : Line} {i : Instruction} (h : line.Gives i)
    (hfeed : '\n' ∉ line.text.toList) : i.WellFormed := by
  cases h with
  | literal htext => exact htext
  | @control k header body hkind =>
    obtain ⟨hheader, hkeyword⟩ := LineKind.header_of_control hkind
    refine ⟨?_, ?_, ?_⟩
    · rw [hheader]
      exact getLast_trimEnd _
    · rw [hkeyword]
      cases k <;> decide
    · rw [hheader]
      exact fun hmem => hfeed ((trimEnd_initial _).subset hmem)
  | each hkind hheader =>
    exact Header.wellFormed_ofClause hheader fun hmem =>
      hfeed (LineKind.subset_of_each hkind hmem)
  | embed hkind hi =>
    refine Instruction.wellFormed_ofEmbedded hi fun hmem => hfeed ?_
    rw [LineKind.text_of_embed hkind]
    simp [hmem]
  | element hkind he hholds =>
    exact ((Element.parse_readFrom he).of_holds hholds).isPhrase fun hmem =>
      hfeed (LineKind.subset_of_element hkind hmem)
  | call hkind hi =>
    obtain ⟨rfl, hupper⟩ := LineKind.text_of_call hkind
    exact Instruction.wellFormed_ofCall hi hupper hfeed

/-! ## Bodies -/

/-- No line of an outline holds a line feed. -/
theorem feed_not_mem_outline {policy : DedentPolicy} {source : String} {outline : Outline}
    (h : Outline.parse policy source = .ok outline) :
    ∀ line ∈ Outline.lines outline, '\n' ∉ line.text.toList := by
  rw [(Outline.parse_eq_ok_iff.mp h).1]
  intro line hline
  obtain ⟨⟨cs, number⟩, hmem, heq⟩ := List.mem_filterMap.mp hline
  dsimp only at heq
  split at heq
  · cases heq
  · cases heq
    have hcs : '\n' ∉ cs := feed_not_mem_lines (List.fst_mem_of_mem_zipIdx hmem)
    rw [Line.ofChars, String.toList_ofList]
    exact fun hfeed => hcs ((List.dropWhile_suffix _).subset hfeed)

theorem wellFormed_lower (options : Options) {policy : DedentPolicy} {source : String}
    {outline : Outline} (h : Outline.parse policy source = .ok outline) :
    ∀ c ∈ (lower options outline).1, c.body.All Instruction.WellFormed := by
  intro c hc i hi
  obtain ⟨node, hnode, hcomponent⟩ := mem_lower.mp hc
  obtain ⟨line, hline, hgives⟩ := gives_component hcomponent i hi
  exact hgives.wellFormed (feed_not_mem_outline h line (Outline.lines_children_subset hnode hline))

/-- The optimizer keeps bodies well-formed. -/
theorem wellFormed_optimize (options : Options) {components : List Component}
    (h : ∀ c ∈ components, c.body.All Instruction.WellFormed) :
    ∀ c ∈ optimize options components, c.body.All Instruction.WellFormed := by
  intro d hd
  -- Expressions and headers are those of the component that `d` was made from. A call may come
  -- from any of the components as far as this argument goes, and a text from none.
  obtain ⟨c, hc, heffects⟩ : ∃ c ∈ components, c.body.effects = d.body.effects := by
    have hmem := List.mem_map_of_mem (f := fun c => c.body.effects) hd
    rw [effects_optimize] at hmem
    exact List.mem_map.mp hmem
  have hcalls : ∀ call ∈ d.body.calls, (Instruction.call call.1 call.2).WellFormed :=
    forall_calls_optimize (P := fun call => (Instruction.call call.1 call.2).WellFormed)
      (fun c hc call hcall => h c hc _ (Instructions.mem_calls.mp hcall)) d hd
  intro i hi
  cases i with
  | literal text => exact (Inlining.normal_optimize options components d hd).ne_empty hi
  | expression expr escape =>
    rw [← Instructions.mem_effects_expression, ← heffects,
      Instructions.mem_effects_expression] at hi
    exact h c hc _ hi
  | control header body =>
    have hmem := Instructions.mem_effects_block.mpr ⟨body, hi⟩
    rw [← heffects] at hmem
    obtain ⟨inner, hinner⟩ := Instructions.mem_effects_block.mp hmem
    have hheader : header.WellFormed := h c hc _ hinner
    exact hheader
  | call name args => exact hcalls (name, args) (Instructions.mem_calls.mpr hi)

/-- **Every instruction of every body is well-formed**, at any depth, as it was lowered, as it was
optimized and as it is compiled. -/
theorem wellFormed_bodies {options : Options} {source : String} {outline : Outline}
    (h : Outline.parse options.dedent source = .ok outline) :
    (∀ c ∈ (lower options outline).1, c.body.All Instruction.WellFormed) ∧
      (∀ c ∈ optimize options (lower options outline).1, c.body.All Instruction.WellFormed) ∧
      ∀ c ∈ (compile options source).components, c.instructions.All Instruction.WellFormed := by
  have hlower := wellFormed_lower options h
  have hoptimize := wellFormed_optimize options hlower
  refine ⟨hlower, hoptimize, ?_⟩
  rw [components_compile h]
  intro c hc
  obtain ⟨c, hmem, rfl⟩ := List.mem_map.mp hc
  exact hoptimize c hmem

/-- A constant component, and one with a loop, a block, an embedded expression and two calls. Blanks
stand around the texts. -/
def pageSource : String :=
  "component Logo\n\tb Hi\ncomponent Page(xs []string)\n\teach x in  xs\n\t\tp(title= x ) Hi\n" ++
    "\tif on \n\t\tgo: raw \n\tLogo\n\tFooter( a, b )\n"

def pageOutline : Outline :=
  [⟨⟨1, 0, "component Logo"⟩, [⟨⟨2, 1, "b Hi"⟩, []⟩]⟩,
    ⟨⟨3, 0, "component Page(xs []string)"⟩,
      [⟨⟨4, 1, "each x in  xs"⟩, [⟨⟨5, 2, "p(title= x ) Hi"⟩, []⟩]⟩,
        ⟨⟨6, 1, "if on "⟩, [⟨⟨7, 2, "go: raw "⟩, []⟩]⟩,
        ⟨⟨8, 1, "Logo"⟩, []⟩, ⟨⟨9, 1, "Footer( a, b )"⟩, []⟩]⟩]

def page : Component :=
  ⟨⟨"Page", [⟨"xs", "xs []string"⟩]⟩, 3,
    [.control (.each "x" "xs")
      [.literal "<p title='", .expression "x" true, .literal "'>", .literal "Hi",
        .literal "</p>"],
      .control (.raw "if on") [.expression "raw" false],
      .call "Logo" "", .call "Footer" "a, b"]⟩

theorem wellFormed_bodies_page :
    Outline.parse .singleLevel pageSource = .ok pageOutline ∧
      page ∈ (lower {} pageOutline).1 ∧ page.body.All Instruction.WellFormed ∧
      ∀ c ∈ (compile {} pageSource).components, c.instructions.All Instruction.WellFormed := by
  have hparse : Outline.parse ({} : Options).dedent pageSource = .ok pageOutline := by
    have hlines : Outline.lines pageOutline = contentLines pageSource := by decide +kernel
    refine Outline.parse_eq_ok_iff.mpr ⟨hlines, ?_, fun _ => ?_⟩
    · simp [pageOutline, Outline.IndentedBy, Node.IndentedBy]
    · rw [← hlines]
      decide
  have hpage : page ∈ (lower {} pageOutline).1 := by
    refine mem_lower.mpr ⟨_, List.mem_cons_of_mem _ List.mem_cons_self, ?_⟩
    with_unfolding_all rfl
  obtain ⟨hlower, -, hcompile⟩ := wellFormed_bodies hparse
  exact ⟨hparse, hpage, hlower page hpage, hcompile⟩

end Stencil
