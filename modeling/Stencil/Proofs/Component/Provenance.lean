/-
Where instructions come from. Whatever stands in a lowered body, at any depth, is a text that is not
empty or was read from one line: a block header, an embedded expression, a call, or an expression
that an element holds (`gives_lowerNodes`). What the readers of lines ensure therefore holds in
every body, and needs no second walk over the lines.
-/
import Stencil.Proofs.Component.Lowered
import Stencil.Proofs.Element.Expressions
import Stencil.Proofs.Element.OpeningTag
import Stencil.Proofs.Outline.Reading

namespace Stencil

/-! ## Properties of all instructions -/

namespace Instructions

/-- Every instruction of a body, at any depth, has the property. -/
def All (P : Instruction → Prop) (body : Instructions) : Prop := ∀ i ∈ body.walk, P i

theorem walk_append (as bs : Instructions) : walk (as ++ bs) = walk as ++ walk bs := by
  induction as with
  | nil => rfl
  | cons i as ih => simp [walk, ih]

namespace All

variable {P Q : Instruction → Prop} {as bs : Instructions}

theorem nil : All P [] := by simp [All, walk]

theorem append_iff : All P (as ++ bs) ↔ All P as ∧ All P bs := by
  simp [All, walk_append, or_imp, forall_and]

theorem append (ha : All P as) (hb : All P bs) : All P (as ++ bs) := append_iff.mpr ⟨ha, hb⟩

theorem literal {text : String} (h : P (.literal text)) : All P [.literal text] := by
  simpa [All, walk, walkOne] using h

theorem expression {expr : String} {escape : Bool} (h : P (.expression expr escape)) :
    All P [.expression expr escape] := by
  simpa [All, walk, walkOne] using h

theorem call {name args : String} (h : P (.call name args)) : All P [.call name args] := by
  simpa [All, walk, walkOne] using h

theorem control {header : Header} (h : P (.control header as)) (ha : All P as) :
    All P [.control header as] := by
  simpa [All, walk, walkOne, h] using ha

theorem mono (h : All P as) (himp : ∀ i, P i → Q i) : All Q as := fun i hi => himp i (h i hi)

/-- Texts that are not empty can be pushed. -/
theorem pushLiteral (hliteral : ∀ text, text ≠ "" → P (.literal text)) (h : All P as)
    (text : String) : All P (as.pushLiteral text) := by
  obtain ⟨-, heq⟩ | ⟨hne, heq⟩ | ⟨hne, front, last, rfl, heq⟩ :=
    Instructions.pushLiteral_cases as text
  · rwa [heq]
  · rw [heq]
    exact h.append (literal (hliteral text hne))
  · rw [heq]
    refine (append_iff.mp h).1.append (literal (hliteral _ fun hempty => hne ?_))
    exact (String.append_eq_empty_iff.mp hempty).2

end All

end Instructions

/-! ## Elements -/

namespace Element

open Instructions (All)

section

variable {P : Instruction → Prop} (hliteral : ∀ text, text ≠ "" → P (.literal text))
include hliteral

theorem all_writeAttribute {out : Instructions} (hout : All P out) {value : AttributeValue}
    (hvalue : ∀ expr escape, value = .expression expr escape → P (.expression expr escape))
    (name lead : String) : All P (writeAttribute out name lead value) := by
  have hname : All P ((out.pushLiteral " ").pushLiteral name) :=
    (hout.pushLiteral hliteral " ").pushLiteral hliteral name
  have hlead := (hname.pushLiteral hliteral "='").pushLiteral hliteral lead
  cases value with
  | boolean => exact hname
  | literal text => exact (hlead.pushLiteral hliteral text).pushLiteral hliteral "'"
  | expression expr escape =>
    exact (hlead.append (.expression (hvalue expr escape rfl))).pushLiteral hliteral "'"

theorem all_foldl_writeAttribute {attributes : List (String × String × AttributeValue)}
    (hvalues : ∀ a ∈ attributes, ∀ expr escape, a.2.2 = .expression expr escape →
      P (.expression expr escape)) {out : Instructions} (hout : All P out) :
    All P (attributes.foldl (fun out (name, lead, value) => writeAttribute out name lead value)
      out) := by
  induction attributes generalizing out with
  | nil => exact hout
  | cons a attributes ih =>
    rw [List.forall_mem_cons] at hvalues
    exact ih hvalues.2 (all_writeAttribute hliteral hout hvalues.1 _ _)

end

/-- An expression that is written in the opening tag is held by the element. -/
theorem holds_of_writtenAttributes {e : Element} {a : String × String × AttributeValue}
    (ha : a ∈ e.writtenAttributes) {expr : String} {escape : Bool}
    (hvalue : a.2.2 = .expression expr escape) : e.Holds expr escape := by
  simp only [writtenAttributes, List.mem_append, Option.mem_toList, Option.map_eq_some_iff,
    List.mem_map] at ha
  rcases ha with (⟨value, hid, rfl⟩ | ⟨⟨lead, value⟩, hclass, rfl⟩) | ⟨⟨name, value⟩, hmem, rfl⟩
  · subst hvalue
    exact .id hid
  · subst hvalue
    refine .explicitClass ?_
    obtain ⟨hv, -⟩ | ⟨⟨⟩, -⟩ | ⟨_, _, ⟨⟩, -⟩ | ⟨_, _, hv, ⟨⟩, -⟩ := mergedClass_cases hclass
    · exact hv
    · exact hv
  · subst hvalue
    exact .entry name hmem

/-- What an element adds to its children: texts that are not empty and the expressions it holds. -/
theorem all_lower {P : Instruction → Prop} {e : Element} {children : Instructions}
    (hliteral : ∀ text, text ≠ "" → P (.literal text))
    (hholds : ∀ expr escape, e.Holds expr escape → P (.expression expr escape))
    (hcontent : e.content ≠ .text "") (hchildren : All P children) (isVoid : Bool) :
    All P (e.lower children isVoid) := by
  have hdoctype : All P (if e.tag == Html.documentTag then [.literal Html.doctype] else []) := by
    split
    · exact .literal (hliteral _ (by decide))
    · exact .nil
  have hopening : All P e.openingTag := by
    have hhead : All P ((Instructions.pushLiteral [] "<").pushLiteral e.tag) :=
      (All.nil.pushLiteral hliteral "<").pushLiteral hliteral e.tag
    exact (all_foldl_writeAttribute hliteral
      (fun a ha expr escape hvalue => hholds expr escape (holds_of_writtenAttributes ha hvalue))
      hhead).pushLiteral hliteral ">"
  have hinner : All P (contentInstructions e.content) := by
    cases hc : e.content with
    | empty => exact .nil
    | text text => exact .literal (hliteral text fun htext => hcontent (by rw [hc, htext]))
    | expression expr escape => exact .expression (hholds expr escape (.content hc))
  have hclosing : All P (if isVoid then [] else [.literal ("</" ++ e.tag ++ ">")]) := by
    split
    · exact .nil
    · refine .literal (hliteral _ fun hempty => ?_)
      have := congrArg String.toList hempty
      simp at this
  exact (((hdoctype.append hopening).append hinner).append hchildren).append hclosing

theorem content_ne_of_parse {tag rest : String} {e : Element} (h : parse tag rest = .ok e) :
    e.content ≠ .text "" := by
  have hcontent : ∀ {whole : String} {escape : Bool} {cs : List Char} {content : Content},
      parseContent tag whole escape cs = .ok content → content ≠ .text "" := by
    intro whole escape cs content h
    unfold parseContent at h
    split at h
    · cases h
      simp
    · split at h
      · cases h
      · cases h
        simp
    · cases h
      simp
    · next text hne =>
      cases h
      simpa using hne
    · cases h
  unfold parse at h
  dsimp only at h
  split at h
  · cases h
  obtain ⟨⟨e', cs⟩, -, h⟩ := bind_eq_ok.mp h
  split at h
  · obtain ⟨content, hread, h⟩ := bind_eq_ok.mp h
    cases h
    exact hcontent hread
  · obtain ⟨content, hread, h⟩ := bind_eq_ok.mp h
    cases h
    exact hcontent hread

end Element

/-! ## Lines -/

/-- The instruction is a text, or was read from the line. -/
inductive Line.Gives (line : Line) : Instruction → Prop
  | literal {text : String} : text ≠ "" → Gives line (.literal text)
  | control {k : ControlKeyword} {header : String} {body : Instructions} :
      LineKind.ofText line.text = .control k header → Gives line (.control (.raw header) body)
  | each {clause : String} {header : Header} {body : Instructions} :
      LineKind.ofText line.text = .each clause → Header.ofClause clause = .ok header →
      Gives line (.control header body)
  | embed {expr : String} {i : Instruction} : LineKind.ofText line.text = .embed expr →
      Instruction.ofEmbedded expr = .ok i → Gives line i
  | element {tag rest : String} {e : Element} {expr : String} {escape : Bool} :
      LineKind.ofText line.text = .element tag rest → Element.parse tag rest = .ok e →
      e.Holds expr escape → Gives line (.expression expr escape)
  | call {text : String} {i : Instruction} : LineKind.ofText line.text = .call text →
      Instruction.ofCall text = .ok i → Gives line i

/-- The instruction comes from one of the lines. -/
def GivenBy (lines : List Line) (i : Instruction) : Prop := ∃ line ∈ lines, line.Gives i

theorem GivenBy.mono {lines more : List Line} {i : Instruction} (h : GivenBy lines i)
    (hsub : lines ⊆ more) : GivenBy more i := by
  obtain ⟨line, hmem, hgives⟩ := h
  exact ⟨line, hsub hmem, hgives⟩

mutual

theorem gives_lowerNode (options : Options) : ∀ (node : Node) (is : Instructions),
    (lowerNode options node).result = .ok is → is.All (GivenBy node.lines)
  | ⟨line, children⟩, is, h => by
    have hline : ∀ {i}, line.Gives i → GivenBy (Node.lines ⟨line, children⟩) i := fun hi =>
      ⟨line, by simp [Node.lines], hi⟩
    -- Only an element and a block have a body, and it comes from the lines below.
    have hbelow : ∀ {body}, (lowerNodes options children).result = .ok body →
        body.All (GivenBy (Node.lines ⟨line, children⟩)) := fun hbody =>
      (gives_lowerNodes options children _ hbody).mono fun i hi =>
        hi.mono (by simp [Node.lines])
    unfold lowerNode at h
    split at h
    · cases h
      exact .nil
    · cases h
    · next hkind =>
      obtain ⟨body, hbody, h⟩ := Lowered.bind_eq_ok.mp h
      cases h
      exact .control (hline (.control hkind)) (hbelow hbody)
    · next hkind =>
      obtain ⟨header, hheader, h⟩ := Lowered.bind_eq_ok.mp h
      obtain ⟨body, hbody, h⟩ := Lowered.bind_eq_ok.mp h
      cases h
      exact .control (hline (.each hkind (Lowered.read_eq_ok.mp hheader))) (hbelow hbody)
    · next hkind =>
      obtain ⟨i, hi, h⟩ := Lowered.bind_eq_ok.mp h
      cases h
      have hi := Lowered.read_eq_ok.mp hi
      obtain ⟨-, rfl⟩ := Instruction.ofEmbedded_eq_ok hi
      exact .expression (hline (.embed hkind hi))
    · next hkind =>
      obtain ⟨e, he, h⟩ := Lowered.bind_eq_ok.mp h
      obtain ⟨body, hbody, h⟩ := Lowered.bind_eq_ok.mp h
      cases h
      have he := Lowered.read_eq_ok.mp he
      exact Element.all_lower (fun text htext => hline (.literal htext))
        (fun expr escape hholds => hline (.element hkind he hholds))
        (Element.content_ne_of_parse he) (hbelow hbody) _
    · next hkind =>
      obtain ⟨i, hi, h⟩ := Lowered.bind_eq_ok.mp h
      obtain ⟨_, -, h⟩ := Lowered.bind_eq_ok.mp h
      cases h
      have hi := Lowered.read_eq_ok.mp hi
      obtain ⟨name, args, rfl⟩ := Instruction.ofCall_eq_ok hi
      exact .call (hline (.call hkind hi))

/-- **Every instruction of lowered lines comes from one of the lines.** -/
theorem gives_lowerNodes (options : Options) : ∀ (nodes : List Node) (is : Instructions),
    (lowerNodes options nodes).result = .ok is → is.All (GivenBy (Outline.lines nodes))
  | [], is, h => by
    unfold lowerNodes at h
    cases h
    exact .nil
  | n :: ns, is, h => by
    unfold lowerNodes at h
    obtain ⟨first, hfirst, h⟩ := Lowered.bind_eq_ok.mp h
    obtain ⟨rest, hrest, h⟩ := Lowered.bind_eq_ok.mp h
    cases h
    refine .append ((gives_lowerNode options n first hfirst).mono fun i hi => hi.mono ?_)
      ((gives_lowerNodes options ns rest hrest).mono fun i hi => hi.mono ?_)
    · exact List.subset_append_left _ _
    · exact List.subset_append_right _ _

end

/-- The body of a component comes from the lines below its definition. -/
theorem gives_component {options : Options} {node : Node} {c : Component}
    (h : (lowerTopLevel options node).component? = some c) :
    c.body.All (GivenBy (Outline.lines node.children)) :=
  gives_lowerNodes options node.children c.body (component_eq_some h).2

end Stencil
