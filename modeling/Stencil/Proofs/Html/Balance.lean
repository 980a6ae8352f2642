/-
Every rendering of a component is balanced. A rendering writes texts as they are, escaped
expressions as any escaped value, other expressions as anything, calls as any balanced text, and
each block any number of times. A line is plain when it embeds nothing, writes no value unescaped
and has no `<` in its text; the renderings of plain lines are balanced, line by line up the
outline (`sound_lowerNodes`), whatever tags the options take for void.
-/
import Stencil.Proofs.Component.Lowered
import Stencil.Proofs.Element.OpeningTag
import Stencil.Proofs.Element.Quoting
import Stencil.Proofs.Html.Escaping
import Stencil.Proofs.Html.Tags
import Stencil.Proofs.LineKind.Forms

namespace Stencil

open Text

/-! ## Renderings -/

mutual

/-- The texts that an instruction can write. -/
inductive RendersOne (options : Options) : Instruction → String → Prop
  | literal (text : String) : RendersOne options (.literal text) text
  | escaped (expr value : String) :
      RendersOne options (.expression expr true) (Html.escape value)
  | raw (expr value : String) : RendersOne options (.expression expr false) value
  /-- A block writes its body some number of times. -/
  | control {body : Instructions} (header : Header) (times : List String) :
      (∀ s ∈ times, Renders options body s) →
        RendersOne options (.control header body) (String.join times)
  | call (name args : String) {s : String} : Html.Balanced options s →
      RendersOne options (.call name args) s

/-- The texts that a body can write. -/
inductive Renders (options : Options) : Instructions → String → Prop
  | nil : Renders options [] ""
  | cons {i : Instruction} {is : Instructions} {a b : String} : RendersOne options i a →
      Renders options is b → Renders options (i :: is) (a ++ b)

end

theorem RendersOne.escaped_inv {options : Options} {expr s : String}
    (h : RendersOne options (.expression expr true) s) : ∃ value, s = Html.escape value := by
  cases h with
  | escaped _ value => exact ⟨value, rfl⟩

namespace Renders

variable {options : Options} {as bs : Instructions} {s : String}

theorem append_iff : Renders options (as ++ bs) s ↔
    ∃ a b, Renders options as a ∧ Renders options bs b ∧ s = a ++ b := by
  induction as generalizing s with
  | nil =>
    constructor
    · exact fun h => ⟨"", s, .nil, h, by simp⟩
    · rintro ⟨a, b, ha, hb, rfl⟩
      cases ha
      simpa using hb
  | cons i is ih =>
    constructor
    · intro h
      obtain _ | ⟨hi, his⟩ := h
      obtain ⟨a, b, ha, hb, rfl⟩ := ih.mp his
      exact ⟨_, b, .cons hi ha, hb, (String.append_assoc ..).symm⟩
    · rintro ⟨_, b, ha, hb, rfl⟩
      obtain _ | ⟨hi, his⟩ := ha
      rw [String.append_assoc]
      exact .cons hi (ih.mpr ⟨_, b, his, hb, rfl⟩)

theorem single_iff {i : Instruction} : Renders options [i] s ↔ RendersOne options i s := by
  constructor
  · intro h
    obtain _ | ⟨hi, hnil⟩ := h
    cases hnil
    simpa using hi
  · intro h
    simpa using Renders.cons h .nil

theorem literal_iff {text : String} : Renders options [.literal text] s ↔ s = text := by
  rw [single_iff]
  constructor
  · intro h
    cases h
    rfl
  · rintro rfl
    exact .literal s

/-- A text that is pushed is written last. -/
theorem pushLiteral_iff {text : String} : Renders options (as.pushLiteral text) s ↔
    ∃ a, Renders options as a ∧ s = a ++ text := by
  obtain ⟨rfl, h⟩ | ⟨-, h⟩ | ⟨-, front, last, rfl, h⟩ := Instructions.pushLiteral_cases as text
  · simp [h]
  · rw [h]
    simp only [append_iff, literal_iff]
    exact ⟨fun ⟨a, _, ha, hb, hs⟩ => ⟨a, ha, hb ▸ hs⟩, fun ⟨a, ha, hs⟩ => ⟨a, text, ha, rfl, hs⟩⟩
  · rw [h]
    simp only [append_iff, literal_iff]
    constructor
    · rintro ⟨a, _, ha, rfl, rfl⟩
      exact ⟨a ++ last, ⟨a, last, ha, rfl, rfl⟩, (String.append_assoc ..).symm⟩
    · rintro ⟨_, ⟨a, _, ha, rfl, rfl⟩, rfl⟩
      exact ⟨a, _, ha, rfl, String.append_assoc ..⟩

end Renders

/-! ## Plain lines -/

/-- Not an expression that is written as it is. -/
def AttributeValue.Escaped : AttributeValue → Prop
  | .expression _ escape => escape = true
  | _ => True

/-- Not an expression that is written as it is, and not a text with a `<`. -/
def Content.Plain : Content → Prop
  | .empty => True
  | .text t => '<' ∉ t.toList
  | .expression _ escape => escape = true

/-- An element that writes every value escaped and has no `<` in its text. -/
structure Element.Plain (e : Element) : Prop where
  id : ∀ value ∈ e.id, value.Escaped
  explicitClass : ∀ value ∈ e.explicitClass, value.Escaped
  attributes : ∀ a ∈ e.attributes, a.2.Escaped
  content : e.content.Plain

/-- A line that embeds nothing, and whose element is plain if it has one. -/
def Line.Plain (line : Line) : Prop :=
  match LineKind.ofText line.text with
  | .embed _ => False
  | .element tag rest => ∀ e, Element.parse tag rest = .ok e → e.Plain
  | _ => True

mutual

/-- A plain line, with plain lines below it. -/
def Node.Plain : Node → Prop
  | ⟨line, children⟩ => line.Plain ∧ Outline.Plain children

/-- Plain lines only. -/
def Outline.Plain : List Node → Prop
  | [] => True
  | n :: ns => n.Plain ∧ Outline.Plain ns

end

/-! ## Elements -/

/-- An attribute as it is written: a name, the text in front of its value, and its value. -/
structure Writable (a : String × String × AttributeValue) : Prop where
  name : ∀ c ∈ a.1.toList, isAttributeChar c = true
  lead : '\'' ∉ a.2.1.toList
  quotable : a.2.2.Quotable
  escaped : a.2.2.Escaped

namespace Element

variable {options : Options}

/-- Writing an attribute adds a text that a reader of the tag passes over. -/
theorem writeAttribute_skipped {out : Instructions} {name lead : String} {value : AttributeValue}
    (h : Writable (name, lead, value)) {s : String}
    (hs : Renders options (writeAttribute out name lead value) s) :
    ∃ a b, Renders options out a ∧ s = a ++ b ∧ Html.Skipped b.toList := by
  have hname := Html.skipped_name h.name
  cases value with
  | boolean =>
    simp only [writeAttribute, Renders.pushLiteral_iff] at hs
    obtain ⟨_, ⟨a, ha, rfl⟩, rfl⟩ := hs
    refine ⟨a, " " ++ name, ha, by simp [String.append_assoc], ?_⟩
    simpa using hname
  | literal text =>
    simp only [writeAttribute, Renders.pushLiteral_iff] at hs
    obtain ⟨_, ⟨_, ⟨_, ⟨_, ⟨_, ⟨a, ha, rfl⟩, rfl⟩, rfl⟩, rfl⟩, rfl⟩, rfl⟩ := hs
    refine ⟨a, " " ++ name ++ "='" ++ lead ++ text ++ "'", ha, by simp [String.append_assoc], ?_⟩
    have hvalue : '\'' ∉ lead.toList ++ text.toList := by
      simpa using ⟨h.lead, h.quotable⟩
    simpa using hname.append (Html.skipped_value hvalue)
  | expression expr escape =>
    obtain rfl : escape = true := h.escaped
    simp only [writeAttribute, Renders.pushLiteral_iff, Renders.append_iff,
      Renders.single_iff] at hs
    obtain ⟨_, ⟨_, _, ⟨_, ⟨_, ⟨_, ⟨a, ha, rfl⟩, rfl⟩, rfl⟩, rfl⟩, hv, rfl⟩, rfl⟩ := hs
    obtain ⟨value, rfl⟩ := hv.escaped_inv
    refine ⟨a, " " ++ name ++ "='" ++ lead ++ Html.escape value ++ "'", ha,
      by simp [String.append_assoc], ?_⟩
    have hvalue : '\'' ∉ lead.toList ++ (Html.escape value).toList := by
      simpa using ⟨h.lead, Html.apostrophe_not_mem_escape value⟩
    simpa using hname.append (Html.skipped_value hvalue)

theorem foldl_writeAttribute_skipped {attributes : List (String × String × AttributeValue)}
    (h : ∀ a ∈ attributes, Writable a) {out : Instructions} {s : String}
    (hs : Renders options (attributes.foldl (fun out (name, lead, value) =>
      writeAttribute out name lead value) out) s) :
    ∃ a b, Renders options out a ∧ s = a ++ b ∧ Html.Skipped b.toList := by
  induction attributes generalizing out with
  | nil => exact ⟨s, "", hs, by simp, by simpa using Html.Skipped.nil⟩
  | cons first attributes ih =>
    obtain ⟨t, c, ht, rfl, hc⟩ := ih (fun a ha => h a (List.mem_cons_of_mem _ ha)) hs
    obtain ⟨a, b, ha, rfl, hb⟩ := writeAttribute_skipped (h first List.mem_cons_self) ht
    refine ⟨a, b ++ c, ha, String.append_assoc .., ?_⟩
    simpa using hb.append hc

/-- The names of classes joined by spaces hold no apostrophe. -/
theorem apostrophe_not_mem_classes {names : List String}
    (h : ∀ name ∈ names, ∀ c ∈ name.toList, isKeywordChar c = true) :
    '\'' ∉ (" ".intercalate names).toList := by
  induction names with
  | nil => simp
  | cons name names ih =>
    have hname : '\'' ∉ name.toList := fun hmem => by
      have := h name List.mem_cons_self _ hmem
      rw [isKeywordChar_apostrophe] at this
      cases this
    by_cases hnames : names = []
    · subst hnames
      simpa using hname
    · rw [String.intercalate_cons_of_ne_nil hnames]
      simpa [hname] using ih fun n hn => h n (List.mem_cons_of_mem _ hn)

/-- The merged class can be written after the text in front of it. -/
theorem mergedClass_writable {e : Element} (hq : e.Quotable) (hp : e.Plain)
    {lead : String} {value : AttributeValue} (h : e.mergedClass = some (lead, value)) :
    Writable ("class", lead, value) := by
  have hclasses := apostrophe_not_mem_classes hq.classes
  have hvalue : ∀ v ∈ e.explicitClass, v.Quotable ∧ v.Escaped :=
    fun v hv => ⟨hq.explicitClass v hv, hp.explicitClass v hv⟩
  obtain ⟨hv, rfl⟩ | ⟨rfl, rfl⟩ | ⟨text, htext, rfl, rfl⟩ | ⟨expr, escape, hexpr, rfl, rfl⟩ :=
    mergedClass_cases h
  · exact ⟨isAttributeChar_class, by simp, (hvalue _ hv).1, (hvalue _ hv).2⟩
  · exact ⟨isAttributeChar_class, by simp, hclasses, trivial⟩
  · refine ⟨isAttributeChar_class, by simp, ?_, trivial⟩
    simp only [AttributeValue.Quotable, String.toList_append, List.mem_append, not_or]
    exact ⟨⟨hclasses, by decide⟩, (hvalue _ htext).1⟩
  · exact ⟨isAttributeChar_class, by simpa using hclasses, trivial, (hvalue _ hexpr).2⟩

theorem writable_writtenAttributes {e : Element} (hq : e.Quotable) (hp : e.Plain) :
    ∀ a ∈ e.writtenAttributes, Writable a := by
  intro a ha
  simp only [writtenAttributes, List.mem_append, Option.mem_toList, Option.map_eq_some_iff,
    List.mem_map] at ha
  rcases ha with (⟨value, hvalue, rfl⟩ | ⟨⟨lead, value⟩, hvalue, rfl⟩) | ⟨⟨name, value⟩, hmem, rfl⟩
  · exact ⟨isAttributeChar_id, by simp, hq.id _ hvalue, hp.id _ hvalue⟩
  · exact mergedClass_writable hq hp hvalue
  · exact ⟨(hq.attributes _ hmem).1, by simp, (hq.attributes _ hmem).2,
      hp.attributes (name, value) hmem⟩

/-- The opening tag is read as the one tag it is. -/
theorem tags_openingTag {e : Element} (hq : e.Quotable) (hp : e.Plain) (htag : e.tag ≠ "")
    (hchars : ∀ c ∈ e.tag.toList, isKeywordChar c = true) {s : String}
    (hs : Renders options e.openingTag s) : Html.tags s.toList = some [.opening e.tag] := by
  unfold openingTag at hs
  dsimp only at hs
  obtain ⟨t, ht, rfl⟩ := Renders.pushLiteral_iff.mp hs
  obtain ⟨a, b, ha, rfl, hb⟩ :=
    foldl_writeAttribute_skipped (writable_writtenAttributes hq hp) ht
  simp only [Renders.pushLiteral_iff] at ha
  obtain ⟨_, ⟨_, hnil, rfl⟩, rfl⟩ := ha
  cases hnil
  have hne : e.tag.toList ≠ [] := by simpa using htag
  have := Html.tags_opening hne hchars hb
  simpa using this

end Element

/-! ## Lines -/

/-- The instructions can write nothing but balanced texts. -/
def Sound (options : Options) (is : Instructions) : Prop :=
  ∀ s, Renders options is s → Html.Balanced options s

namespace Sound

variable {options : Options} {as bs : Instructions}

theorem nil : Sound options [] := by
  intro s hs
  cases hs
  exact Html.balanced_text (by simp)

theorem append (ha : Sound options as) (hb : Sound options bs) : Sound options (as ++ bs) := by
  intro s hs
  obtain ⟨a, b, hra, hrb, rfl⟩ := Renders.append_iff.mp hs
  exact (ha a hra).append (hb b hrb)

theorem balanced_join {times : List String} (h : ∀ s ∈ times, Html.Balanced options s) :
    Html.Balanced options (String.join times) := by
  induction times with
  | nil => exact Html.balanced_text (by simp)
  | cons s times ih =>
    rw [String.join_cons]
    exact (h s List.mem_cons_self).append (ih fun t ht => h t (List.mem_cons_of_mem _ ht))

theorem control (h : Sound options as) (header : Header) :
    Sound options [.control header as] := by
  intro s hs
  cases Renders.single_iff.mp hs with
  | control _ times htimes => exact balanced_join fun t ht => h t (htimes t ht)

theorem call (name args : String) : Sound options [.call name args] := by
  intro s hs
  cases Renders.single_iff.mp hs with
  | call _ _ hbalanced => exact hbalanced

theorem contentInstructions {content : Content} (h : content.Plain) :
    Sound options (Element.contentInstructions content) := by
  cases content with
  | empty => exact nil
  | text t =>
    intro s hs
    obtain rfl := Renders.literal_iff.mp hs
    exact Html.balanced_text h
  | expression expr escape =>
    obtain rfl : escape = true := h
    intro s hs
    obtain ⟨value, rfl⟩ := (Renders.single_iff.mp hs).escaped_inv
    exact Html.balanced_text (Html.lt_not_mem_escape value)

theorem doctype (tag : String) :
    Sound options (if tag == Html.documentTag then [.literal Html.doctype] else []) := by
  split
  · intro s hs
    obtain rfl := Renders.literal_iff.mp hs
    exact Html.balanced_doctype
  · exact nil

/-- An element around sound children is sound. -/
theorem lower {e : Element} (hq : e.Quotable) (hp : e.Plain) (htag : e.tag ≠ "")
    (hchars : ∀ c ∈ e.tag.toList, isKeywordChar c = true) (h : Sound options as) :
    Sound options (e.lower as (options.isVoidTag e.tag)) := by
  have hinner : Sound options (Element.contentInstructions e.content ++ as) :=
    (contentInstructions hp.content).append h
  unfold Element.lower
  rw [List.append_assoc, List.append_assoc, List.append_assoc]
  refine (doctype e.tag).append ?_
  intro s hs
  obtain ⟨a, t, ha, ht, rfl⟩ := Renders.append_iff.mp hs
  have hopen := Element.tags_openingTag hq hp htag hchars ha
  rw [← List.append_assoc] at ht
  obtain ⟨b, c, hb, hc, rfl⟩ := Renders.append_iff.mp ht
  by_cases hvoid : options.isVoidTag e.tag = true
  · rw [if_pos hvoid] at hc
    cases hc
    rw [String.append_empty]
    exact (Html.balanced_void hvoid hopen).append (hinner b hb)
  · rw [if_neg hvoid] at hc
    obtain rfl := Renders.literal_iff.mp hc
    rw [← String.append_assoc]
    refine Html.Balanced.element (by simpa using hvoid) hopen (hinner b hb) ?_
    have hne : e.tag.toList ≠ [] := by simpa using htag
    have := Html.tags_closing hne hchars
    simpa using this

end Sound

mutual

/-- The instructions of a plain line are sound. -/
theorem sound_lowerNode (options : Options) : ∀ (node : Node), node.Plain →
    ∀ is, (lowerNode options node).result = .ok is → Sound options is
  | ⟨line, children⟩, ⟨hline, hchildren⟩, is, h => by
    unfold lowerNode at h
    unfold Line.Plain at hline
    split at h
    · cases h
      exact .nil
    · cases h
    · obtain ⟨body, hbody, h⟩ := Lowered.bind_eq_ok.mp h
      cases h
      exact (sound_lowerNodes options children hchildren body hbody).control _
    · obtain ⟨header, -, h⟩ := Lowered.bind_eq_ok.mp h
      obtain ⟨body, hbody, h⟩ := Lowered.bind_eq_ok.mp h
      cases h
      exact (sound_lowerNodes options children hchildren body hbody).control _
    · next hkind =>
      rw [hkind] at hline
      cases hline
    · next tag rest hkind =>
      rw [hkind] at hline
      obtain ⟨e, he, h⟩ := Lowered.bind_eq_ok.mp h
      obtain ⟨body, hbody, h⟩ := Lowered.bind_eq_ok.mp h
      cases h
      have he := Lowered.read_eq_ok.mp he
      obtain rfl := Element.parse_tag he
      exact Sound.lower (Element.parse_quotable he) (hline e he) (Element.parse_eq_ok he).1
        (LineKind.keyword_of_element hkind) (sound_lowerNodes options children hchildren body hbody)
    · obtain ⟨i, hi, h⟩ := Lowered.bind_eq_ok.mp h
      obtain ⟨_, -, h⟩ := Lowered.bind_eq_ok.mp h
      cases h
      obtain ⟨name, args, rfl⟩ := Instruction.ofCall_eq_ok (Lowered.read_eq_ok.mp hi)
      exact .call name args

/-- The instructions of plain lines are sound. -/
theorem sound_lowerNodes (options : Options) : ∀ (nodes : List Node), Outline.Plain nodes →
    ∀ is, (lowerNodes options nodes).result = .ok is → Sound options is
  | [], _, is, h => by
    unfold lowerNodes at h
    cases h
    exact .nil
  | n :: ns, ⟨hn, hns⟩, is, h => by
    unfold lowerNodes at h
    obtain ⟨first, hfirst, h⟩ := Lowered.bind_eq_ok.mp h
    obtain ⟨rest, hrest, h⟩ := Lowered.bind_eq_ok.mp h
    cases h
    exact (sound_lowerNode options n hn first hfirst).append
      (sound_lowerNodes options ns hns rest hrest)

end

/-- **Every rendering of a component is balanced HTML**, if no line of the component embeds
anything, writes a value unescaped or has a `<` in its text. -/
theorem renders_balanced {options : Options} {source : String} {outline : Outline}
    (_ : Outline.parse options.dedent source = .ok outline) {c : Component}
    (hc : c ∈ (lower options outline).1)
    (hplain : ∀ node ∈ outline, node.line.number = c.line → node.Plain) {html : String}
    (hrenders : Renders options c.body html) : Html.Balanced options html := by
  simp only [lower, List.mem_filterMap, List.mem_map] at hc
  obtain ⟨_, ⟨node, hnode, rfl⟩, hcomponent⟩ := hc
  obtain ⟨hline, hbody⟩ := component_eq_some hcomponent
  have hnodePlain := hplain node hnode hline.symm
  obtain ⟨line, children⟩ := node
  exact sound_lowerNodes options children hnodePlain.2 c.body hbody html hrenders

/-- A component with a block, attributes, a void element and a call. -/
def noteSource : String :=
  "component Note(x string)\n\tif x\n\t\tp.a(title=x, hidden) Hi\n\tbr\n\tFooter\n"

def noteOutline : Outline :=
  [⟨⟨1, 0, "component Note(x string)"⟩,
    [⟨⟨2, 1, "if x"⟩, [⟨⟨3, 2, "p.a(title=x, hidden) Hi"⟩, []⟩]⟩, ⟨⟨4, 1, "br"⟩, []⟩,
      ⟨⟨5, 1, "Footer"⟩, []⟩]⟩]

def note : Component :=
  ⟨⟨"Note", [⟨"x", "x string"⟩]⟩, 1,
    [.control (.raw "if x")
      [.literal "<p class='a' title='", .expression "x" true, .literal "' hidden>", .literal "Hi",
        .literal "</p>"],
      .literal "<br>", .call "Footer" ""]⟩

theorem renders_balanced_note :
    Outline.parse .singleLevel noteSource = .ok noteOutline ∧ note ∈ (lower {} noteOutline).1 ∧
      Outline.Plain noteOutline ∧
      Renders {} note.body "<p class='a' title='&lt;' hidden>Hi</p><br><i></i>" ∧
      Html.Balanced {} "<p class='a' title='&lt;' hidden>Hi</p><br><i></i>" := by
  have hparse : Outline.parse .singleLevel noteSource = .ok noteOutline := rfl
  have hnote : note ∈ (lower {} noteOutline).1 := by
    have : (lower {} noteOutline).1 = [note] := by with_unfolding_all rfl
    rw [this]
    exact List.mem_singleton_self note
  have hp : ∀ e, Element.parse "p" ".a(title=x, hidden) Hi" = .ok e → e.Plain := by
    have : Element.parse "p" ".a(title=x, hidden) Hi" =
        .ok { tag := "p", classes := ["a"],
              attributes := [("title", .expression "x" true), ("hidden", .boolean)],
              content := .text "Hi" } := by decide +kernel
    rw [this]
    rintro e ⟨⟩
    exact ⟨by simp, by simp, by simp [AttributeValue.Escaped], by simp [Content.Plain]⟩
  have hbr : ∀ e, Element.parse "br" "" = .ok e → e.Plain := by
    have : Element.parse "br" "" = .ok { tag := "br" } := by decide +kernel
    rw [this]
    rintro e ⟨⟩
    exact ⟨by simp, by simp, by simp, trivial⟩
  have hplain : Outline.Plain noteOutline :=
    ⟨⟨trivial, ⟨trivial, ⟨hp, trivial⟩, trivial⟩, ⟨hbr, trivial⟩, ⟨trivial, trivial⟩, trivial⟩,
      trivial⟩
  have hrenders : Renders {} note.body "<p class='a' title='&lt;' hidden>Hi</p><br><i></i>" := by
    have hbody : Renders {} [.literal "<p class='a' title='", .expression "x" true,
        .literal "' hidden>", .literal "Hi", .literal "</p>"]
        "<p class='a' title='&lt;' hidden>Hi</p>" :=
      .cons (.literal _) (.cons (.escaped "x" "<") (.cons (.literal _) (.cons (.literal _)
        (.cons (.literal _) .nil))))
    refine .cons (.control (.raw "if x") ["<p class='a' title='&lt;' hidden>Hi</p>"] ?_)
      (.cons (.literal _) (.cons (.call "Footer" "" (s := "<i></i>") ?_) .nil))
    · intro s hs
      rw [List.mem_singleton.mp hs]
      exact hbody
    · decide +kernel
  refine ⟨hparse, hnote, hplain, hrenders, ?_⟩
  refine renders_balanced hparse hnote (fun node hnode _ => ?_) hrenders
  rw [List.mem_singleton.mp hnode]
  exact hplain.1

end Stencil
