/-
What the opening tag of an element shows. An element that was read has distinct attributes
(`parse_distinct`), and each of its values is a text without apostrophes or an expression, whose
value is escaped where the line does not ask for it as it is. So the tag that is written, whatever
the values of the expressions are, is the printed form of one list of attributes
(`filled?_openingTag`): the id, the class with the shorthands in front, then the others.

`read_openingTag`: that list is what a reader of the tag finds, no more and no less.
-/
import Stencil.Proofs.Html.Attributes
import Stencil.Proofs.Html.Balance

namespace Stencil

open Text

/-! ## Instructions with values -/

/-- Expressions with their values, in the order they are evaluated. -/
abbrev Evaluations := List (String × String)

/-- What texts and expressions write when these evaluations are made: each expression writes the
value it has itself, and one that is evaluated out of turn writes nothing. -/
def Instructions.filled? : Instructions → Evaluations → Option String
  | [], [] => some ""
  | .literal text :: is, evaluations => (filled? is evaluations).map (text ++ ·)
  | .expression expr escape :: is, (evaluated, value) :: evaluations =>
    if evaluated = expr then
      (filled? is evaluations).map ((if escape then Html.escape value else value) ++ ·)
    else none
  | _, _ => none

namespace Instructions

variable {as bs : Instructions} {us vs : Evaluations} {a b : String}

theorem filled?_append (ha : as.filled? us = some a) (hb : bs.filled? vs = some b) :
    Instructions.filled? (as ++ bs) (us ++ vs) = some (a ++ b) := by
  fun_induction filled? as us generalizing a with
  | case1 =>
    cases ha
    simpa using hb
  | case2 text is values ih =>
    obtain ⟨rest, hrest, rfl⟩ := Option.map_eq_some_iff.mp ha
    simp [filled?, ih hrest, String.append_assoc]
  | case3 expr escape is value evaluations ih =>
    obtain ⟨rest, hrest, rfl⟩ := Option.map_eq_some_iff.mp ha
    simp [filled?, ih hrest, String.append_assoc]
  | case4 | case5 => cases ha

theorem filled?_literal (text : String) : Instructions.filled? [.literal text] [] = some text := by
  simp [filled?]

/-- A text at the end takes no value. -/
theorem filled?_concat_literal {text : String}
    (h : Instructions.filled? (as ++ [.literal text]) vs = some a) :
    ∃ b, as.filled? vs = some b ∧ a = b ++ text := by
  induction as generalizing vs a with
  | nil =>
    cases vs with
    | nil =>
      rw [List.nil_append, filled?_literal] at h
      cases h
      exact ⟨"", rfl, by simp⟩
    | cons v vs => simp [filled?] at h
  | cons i is ih =>
    cases i with
    | literal first =>
      obtain ⟨rest, hrest, rfl⟩ := Option.map_eq_some_iff.mp h
      obtain ⟨b, hb, rfl⟩ := ih hrest
      exact ⟨first ++ b, by simp [filled?, hb], (String.append_assoc ..).symm⟩
    | expression expr escape =>
      cases vs with
      | nil => cases h
      | cons v vs =>
        rw [List.cons_append, filled?] at h
        split at h
        · next heq =>
          obtain ⟨rest, hrest, rfl⟩ := Option.map_eq_some_iff.mp h
          obtain ⟨b, hb, rfl⟩ := ih hrest
          exact ⟨_, by simp [filled?, heq, hb], (String.append_assoc ..).symm⟩
        · cases h
    | control header body => cases h
    | call name args => cases h

/-- A text that is pushed is written last. -/
theorem filled?_pushLiteral (h : as.filled? vs = some a) (text : String) :
    (as.pushLiteral text).filled? vs = some (a ++ text) := by
  obtain ⟨rfl, heq⟩ | ⟨-, heq⟩ | ⟨-, front, last, rfl, heq⟩ := pushLiteral_cases as text
  · rw [heq, String.append_empty, h]
  · have := filled?_append h (filled?_literal text)
    rwa [List.append_nil, ← heq] at this
  · obtain ⟨b, hb, rfl⟩ := filled?_concat_literal h
    have := filled?_append hb (filled?_literal (last ++ text))
    rwa [List.append_nil, ← heq, ← String.append_assoc] at this

theorem filled?_concat_expression (h : as.filled? vs = some a) (expr value : String) :
    Instructions.filled? (as ++ [.expression expr true]) (vs ++ [(expr, value)]) =
      some (a ++ Html.escape value) :=
  filled?_append h (by simp [filled?])

end Instructions

/-! ## Attributes as they are shown -/

/-- The value of an attribute in the tag, when its expression has the value `value`. -/
def AttributeValue.shown (value : String) : AttributeValue → Option String
  | .boolean => none
  | .literal text => some text
  | .expression _ _ => some (Html.escape value)

/-- The evaluation that an attribute asks for, when its expression has the value `value`. -/
def AttributeValue.evaluations (value : String) : AttributeValue → Evaluations
  | .boolean => []
  | .literal _ => []
  | .expression expr _ => [(expr, value)]

namespace Element

/-- The evaluations that the tag asks for, when the expression of each attribute has the value that
`value` gives to its name. -/
def evaluations (e : Element) (value : String → String) : Evaluations :=
  e.id.toList.flatMap (AttributeValue.evaluations (value "id"))
    ++ e.explicitClass.toList.flatMap (AttributeValue.evaluations (value "class"))
    ++ e.attributes.flatMap fun (name, v) => v.evaluations (value name)

/-- The class in the tag: the shorthands, and after a space the value that is given besides. A class
that is named without a value adds nothing to shorthands. -/
def shownClass (e : Element) (value : String) : Option (Option String) :=
  match e.classes, e.explicitClass.map (AttributeValue.shown value) with
  | [], given => given
  | names, some (some text) => some (some (" ".intercalate names ++ " " ++ text))
  | names, _ => some (some (" ".intercalate names))

/-- The attributes in the tag, when the expression of each has the value that `value` gives to its
name. -/
def shownAttributes (e : Element) (value : String → String) : List Html.Attribute :=
  (e.id.map fun v => ("id", v.shown (value "id"))).toList
    ++ ((e.shownClass (value "class")).map fun v => ("class", v)).toList
    ++ e.attributes.map fun (name, v) => (name, v.shown (value name))

/-- No value of an attribute is written as it is. -/
structure EscapesAttributes (e : Element) : Prop where
  id : ∀ v ∈ e.id, v.Escaped
  explicitClass : ∀ v ∈ e.explicitClass, v.Escaped
  attributes : ∀ a ∈ e.attributes, a.2.Escaped

/-! ## Distinct attributes -/

/-- Each attribute has a name of its own, and no class is the empty name. -/
structure Distinct (e : Element) : Prop where
  classes : "" ∉ e.classes
  names : ∀ name ∈ e.attributes.map (·.1), name ≠ "" ∧ name ≠ "id" ∧ name ≠ "class"
  nodup : (e.attributes.map (·.1)).Nodup

/-- The names after an assignment: the name stays where it is, or comes last. -/
theorem names_assign (name : String) (value : AttributeValue) :
    ∀ attributes : List (String × AttributeValue), (assign name value attributes).map (·.1) =
      if name ∈ attributes.map (·.1) then attributes.map (·.1) else attributes.map (·.1) ++ [name]
  | [] => rfl
  | (n, v) :: rest => by
    unfold assign
    by_cases hn : n = name
    · simp [hn]
    · have hne : ¬ name = n := fun h => hn h.symm
      simp only [beq_iff_eq, hn, if_false, List.map_cons, List.mem_cons, hne, false_or,
        names_assign name value rest]
      split <;> simp

theorem Distinct.setAttribute {e : Element} (h : e.Distinct) {name : String} (hname : name ≠ "")
    (value : AttributeValue) : (e.setAttribute name value).Distinct := by
  unfold Element.setAttribute
  split
  · exact { h with }
  · next hid =>
    split
    · exact { h with }
    · next hclass =>
      have hid : name ≠ "id" := by simpa using hid
      have hclass : name ≠ "class" := by simpa using hclass
      refine ⟨h.classes, ?_, ?_⟩
      · intro other hother
        rw [names_assign] at hother
        split at hother
        · exact h.names other hother
        · rcases List.mem_append.mp hother with hother | hother
          · exact h.names other hother
          · rw [List.mem_singleton.mp hother]
            exact ⟨hname, hid, hclass⟩
      · rw [names_assign]
        split
        · exact h.nodup
        · next hnew =>
          rw [List.nodup_append]
          refine ⟨h.nodup, by simp, fun a ha b hb hab => hnew ?_⟩
          rw [List.mem_singleton.mp hb] at hab
          exact hab ▸ ha

theorem Distinct.addShorthand {e : Element} (h : e.Distinct) (name : Char × List Char) :
    (e.addShorthand name).Distinct := by
  unfold Element.addShorthand
  split
  · exact h
  · next hne =>
    split
    · exact { h with }
    · refine { h with classes := fun hmem => ?_ }
      rcases List.mem_append.mp hmem with hmem | hmem
      · exact h.classes hmem
      · have hempty : name.2 = [] := by
          simpa using congrArg String.toList (List.mem_singleton.mp hmem).symm
        simp [hempty] at hne

theorem Distinct.foldl_addShorthand {e : Element} (h : e.Distinct)
    (names : List (Char × List Char)) : (names.foldl Element.addShorthand e).Distinct := by
  induction names generalizing e with
  | nil => exact h
  | cons name names ih => exact ih (h.addShorthand name)

theorem Distinct.withEntries {e : Element} (h : e.Distinct)
    {entries : List (String × AttributeValue)} (hs : ∀ entry ∈ entries, entry.1 ≠ "") :
    (e.withEntries entries).Distinct := by
  induction entries generalizing e with
  | nil => exact h
  | cons entry entries ih =>
    rw [List.forall_mem_cons] at hs
    exact ih (h.setAttribute hs.1 entry.2) hs.2

/-- An entry of a list has a name. -/
theorem parseEntries_nonempty {whole : String} {cs : List Char}
    {entries : List (String × AttributeValue)} (h : parseEntries whole cs = .ok entries) :
    ∀ entry ∈ entries, entry.1 ≠ "" := by
  fun_induction parseEntries whole cs generalizing entries with
  | case1 =>
    cases h
    simp
  | case2 | case7 => cases h
  | case3 =>
    rename_i hname _
    cases h
    exact forall_entry_cons (by simpa using hname) (by simp)
  | case4 =>
    rename_i hname _ _ ih
    obtain ⟨rest, hrest, h⟩ := bind_eq_ok.mp h
    cases h
    exact forall_entry_cons (by simpa using hname) (ih hrest)
  | case5 | case6 =>
    rename_i hname _ _ ih
    obtain ⟨value, -, h⟩ := bind_eq_ok.mp h
    obtain ⟨rest, hrest, h⟩ := bind_eq_ok.mp h
    cases h
    exact forall_entry_cons (by simpa using hname) (ih hrest)

/-- **An element that was read has distinct attributes.** -/
theorem parse_distinct {tag rest : String} {e : Element} (h : parse tag rest = .ok e) :
    e.Distinct := by
  obtain ⟨-, entries, content, hentries, rfl⟩ := parse_eq_ok h
  have hbare : ({ tag } : Element).Distinct := ⟨by simp, by simp, by simp⟩
  have hnames := hbare.foldl_addShorthand (shorthands rest.toList).1
  have hall : ∀ entry ∈ entries, entry.1 ≠ "" := by
    rcases hentries with rfl | ⟨whole, cs, hentries⟩
    · simp
    · exact parseEntries_nonempty hentries
  exact { hnames.withEntries hall with }

/-! ## The tag as it is written -/

/-- An attribute as it is written, with the text in front of its value. -/
def shownWritten (value : String → String) (a : String × String × AttributeValue) :
    Html.Attribute :=
  (a.1, (a.2.2.shown (value a.1)).map (a.2.1 ++ ·))

theorem filled?_writeAttribute {out : Instructions} {vs : Evaluations} {s : String}
    (h : out.filled? vs = some s) (name lead : String) {v : AttributeValue} (hv : v.Escaped)
    (value : String) :
    (writeAttribute out name lead v).filled? (vs ++ v.evaluations value) =
      some (s ++ String.ofList (Html.Attribute.print (name, (v.shown value).map (lead ++ ·)))) := by
  have hname := Instructions.filled?_pushLiteral (Instructions.filled?_pushLiteral h " ") name
  cases v with
  | boolean =>
    rw [AttributeValue.evaluations, List.append_nil, writeAttribute, hname]
    simp [Html.Attribute.print, AttributeValue.shown, Html.printValue, ← String.toList_inj]
  | literal text =>
    have hlead := Instructions.filled?_pushLiteral (Instructions.filled?_pushLiteral hname "='") lead
    have := Instructions.filled?_pushLiteral (Instructions.filled?_pushLiteral hlead text) "'"
    rw [AttributeValue.evaluations, List.append_nil, writeAttribute, this]
    simp [Html.Attribute.print, AttributeValue.shown, Html.printValue, ← String.toList_inj]
  | expression expr escape =>
    obtain rfl : escape = true := hv
    have hlead := Instructions.filled?_pushLiteral (Instructions.filled?_pushLiteral hname "='") lead
    have := Instructions.filled?_pushLiteral
      (Instructions.filled?_concat_expression hlead expr value) "'"
    rw [AttributeValue.evaluations, writeAttribute, this]
    simp [Html.Attribute.print, AttributeValue.shown, Html.printValue, ← String.toList_inj]

theorem filled?_writeAttributes (value : String → String)
    {attributes : List (String × String × AttributeValue)} (h : ∀ a ∈ attributes, a.2.2.Escaped)
    {out : Instructions} {vs : Evaluations} {s : String} (hs : out.filled? vs = some s) :
    Instructions.filled? (attributes.foldl (fun out (name, lead, v) =>
      writeAttribute out name lead v) out)
        (vs ++ attributes.flatMap fun a => a.2.2.evaluations (value a.1)) =
      some (s ++ String.ofList ((attributes.map (shownWritten value)).flatMap
        Html.Attribute.print)) := by
  induction attributes generalizing out vs s with
  | nil => simpa using hs
  | cons a attributes ih =>
    rw [List.forall_mem_cons] at h
    have hfirst := filled?_writeAttribute hs a.1 a.2.1 h.1 (value a.1)
    have := ih h.2 hfirst
    simpa [shownWritten, String.append_assoc, String.ofList_append] using this

/-- The shorthands are no expressions, so the merged class asks for what is given besides. -/
theorem evaluations_mergedClass (e : Element) (value : String) :
    (e.mergedClass.toList.flatMap fun a => a.2.evaluations value) =
      e.explicitClass.toList.flatMap (AttributeValue.evaluations value) := by
  unfold mergedClass
  dsimp only
  split
  · cases e.explicitClass <;> rfl
  · cases e.explicitClass with
    | none => rfl
    | some v => cases v <;> rfl

theorem evaluations_writtenAttributes (e : Element) (value : String → String) :
    (e.writtenAttributes.flatMap fun a => a.2.2.evaluations (value a.1)) = e.evaluations value := by
  rw [writtenAttributes, evaluations, List.flatMap_append, List.flatMap_append,
    ← evaluations_mergedClass]
  congr 1
  · congr 1
    · cases e.id <;> rfl
    · cases e.mergedClass <;> rfl
  · rw [List.flatMap_map]

theorem escaped_mergedClass {e : Element} (h : e.EscapesAttributes) {lead : String}
    {v : AttributeValue} (hclass : e.mergedClass = some (lead, v)) : v.Escaped := by
  obtain ⟨hv, -⟩ | ⟨rfl, -⟩ | ⟨_, -, rfl, -⟩ | ⟨_, _, hv, rfl, -⟩ := mergedClass_cases hclass
  · exact h.explicitClass v hv
  · trivial
  · trivial
  · exact h.explicitClass _ hv

theorem escaped_writtenAttributes {e : Element} (h : e.EscapesAttributes) :
    ∀ a ∈ e.writtenAttributes, a.2.2.Escaped := by
  intro a ha
  simp only [writtenAttributes, List.mem_append, Option.mem_toList, Option.map_eq_some_iff,
    List.mem_map] at ha
  rcases ha with (⟨v, hv, rfl⟩ | ⟨⟨lead, v⟩, hv, rfl⟩) | ⟨⟨name, v⟩, hmem, rfl⟩
  · exact h.id v hv
  · exact escaped_mergedClass h hv
  · exact h.attributes (name, v) hmem

/-- The merged class shows the shorthands and what is given besides. -/
theorem shown_mergedClass {e : Element} (h : "" ∉ e.classes) (value : String) :
    (e.mergedClass.map fun (lead, v) => (v.shown value).map (lead ++ ·)) = e.shownClass value := by
  unfold mergedClass shownClass
  dsimp only
  by_cases hclasses : e.classes = []
  · cases hgiven : e.explicitClass with
    | none => simp [hclasses]
    | some v => simp [hclasses]
  · have hnames : (" ".intercalate e.classes).isEmpty = false := by
      rw [Bool.eq_false_iff]
      intro hempty
      exact intercalate_ne_empty hclasses h (String.isEmpty_iff.mp hempty)
    obtain ⟨first, others, hcons⟩ := List.exists_cons_of_ne_nil hclasses
    rw [hnames]
    cases hgiven : e.explicitClass with
    | none => simp [hcons, AttributeValue.shown]
    | some v => cases v <;> simp [hcons, AttributeValue.shown]

theorem shown_writtenAttributes {e : Element} (h : "" ∉ e.classes) (value : String → String) :
    e.writtenAttributes.map (shownWritten value) = e.shownAttributes value := by
  rw [writtenAttributes, shownAttributes, List.map_append, List.map_append,
    ← shown_mergedClass h (value "class")]
  congr 1
  · congr 1
    · cases e.id <;> simp [shownWritten]
    · cases e.mergedClass <;> simp [shownWritten]
  · simp [shownWritten, Function.comp_def]

/-- **The opening tag is written as its attributes are printed.** -/
theorem filled?_openingTag {e : Element} (hclasses : "" ∉ e.classes) (h : e.EscapesAttributes)
    (value : String → String) :
    e.openingTag.filled? (e.evaluations value) =
      some (String.ofList (Html.printOpeningTag e.tag (e.shownAttributes value))) := by
  have hempty : Instructions.filled? [] [] = some "" := rfl
  have hhead := Instructions.filled?_pushLiteral
    (Instructions.filled?_pushLiteral hempty "<") e.tag
  have hattributes := filled?_writeAttributes value (escaped_writtenAttributes h) hhead
  rw [List.nil_append, evaluations_writtenAttributes, shown_writtenAttributes hclasses]
    at hattributes
  rw [openingTag, Instructions.filled?_pushLiteral hattributes ">"]
  simp [Html.printOpeningTag, ← String.toList_inj]

/-! ## What a reader finds -/

theorem apostrophe_not_mem_shown {v : AttributeValue} (h : v.Quotable) (value : String) :
    ∀ text ∈ v.shown value, '\'' ∉ text.toList := by
  intro text htext
  cases v with
  | boolean => cases htext
  | literal literal =>
    cases htext
    exact h
  | expression expr escape =>
    cases htext
    exact Html.apostrophe_not_mem_escape value

theorem apostrophe_not_mem_shownClass {e : Element} (h : e.Quotable) (value : String) :
    ∀ v ∈ e.shownClass value, ∀ text ∈ v, '\'' ∉ text.toList := by
  have hgiven : ∀ v ∈ e.explicitClass.map (AttributeValue.shown value),
      ∀ text ∈ v, '\'' ∉ text.toList := by
    intro v hv
    obtain ⟨w, hw, rfl⟩ := Option.map_eq_some_iff.mp hv
    exact apostrophe_not_mem_shown (h.explicitClass w hw) value
  have hnames := apostrophe_not_mem_classes h.classes
  unfold shownClass
  split
  · exact hgiven
  · next text htext _ =>
    intro v hv t ht
    cases hv
    cases ht
    simp only [String.toList_append, List.mem_append, not_or]
    exact ⟨⟨hnames, by decide⟩, hgiven _ htext text rfl⟩
  · intro v hv t ht
    cases hv
    cases ht
    exact hnames

theorem safe_shownAttributes {e : Element} (hquotable : e.Quotable) (hdistinct : e.Distinct)
    (value : String → String) : ∀ a ∈ e.shownAttributes value, a.Safe := by
  intro a ha
  simp only [shownAttributes, List.mem_append, Option.mem_toList, Option.map_eq_some_iff,
    List.mem_map] at ha
  rcases ha with (⟨v, hv, rfl⟩ | ⟨v, hv, rfl⟩) | ⟨⟨name, v⟩, hmem, rfl⟩
  · exact ⟨by simp, isAttributeChar_id, apostrophe_not_mem_shown (hquotable.id v hv) _⟩
  · exact ⟨by simp, isAttributeChar_class, apostrophe_not_mem_shownClass hquotable _ v hv⟩
  · have hname := hdistinct.names name (List.mem_map_of_mem hmem)
    obtain ⟨hchars, hvalue⟩ := hquotable.attributes _ hmem
    exact ⟨hname.1, hchars, apostrophe_not_mem_shown hvalue _⟩

theorem nodup_shownAttributes {e : Element} (h : e.Distinct) (value : String → String) :
    ((e.shownAttributes value).map (·.1)).Nodup := by
  have hnames : ((e.attributes.map fun a => (a.1, a.2.shown (value a.1))).map
      fun a : Html.Attribute => a.1) = e.attributes.map (·.1) := by
    rw [List.map_map]
    rfl
  have hid : "id" ∉ e.attributes.map (·.1) := fun hmem => (h.names _ hmem).2.1 rfl
  have hclass : "class" ∉ e.attributes.map (·.1) := fun hmem => (h.names _ hmem).2.2 rfl
  rw [shownAttributes, List.map_append, List.map_append, hnames]
  cases e.id <;> cases e.shownClass (value "class") <;> simp [h.nodup, hid, hclass]

/-- **A reader of the opening tag finds the attributes of the element and nothing else**, whatever
the values of its expressions are: each once, in order, with its value. -/
theorem read_openingTag {tag rest : String} {e : Element}
    (htag : ∀ c ∈ tag.toList, isKeywordChar c = true) (h : parse tag rest = .ok e)
    (hescapes : e.EscapesAttributes) (value : String → String) :
    ∃ html, e.openingTag.filled? (e.evaluations value) = some html ∧
      Html.readOpeningTag html.toList = some (tag, e.shownAttributes value) ∧
      ((e.shownAttributes value).map (·.1)).Nodup ∧
      ∀ a ∈ e.shownAttributes value, ∀ text ∈ a.2, '\'' ∉ text.toList := by
  have hdistinct := parse_distinct h
  have hsafe := safe_shownAttributes (parse_quotable h) hdistinct value
  obtain rfl := parse_tag h
  refine ⟨_, filled?_openingTag hdistinct.classes hescapes value, ?_,
    nodup_shownAttributes hdistinct value, fun a ha => (hsafe a ha).value⟩
  rw [String.toList_ofList]
  exact Html.readOpeningTag_print (parse_eq_ok h).1 htag hsafe

/-- A link with shorthands, a class and a title that are expressions, and a title given twice. -/
def link : Element where
  tag := "a"
  id := some (.literal "top")
  classes := ["wide", "red"]
  explicitClass := some (.expression "kind" true)
  attributes := [("title", .expression "name" true), ("data-q", .literal "it&#39;s"),
    ("hidden", .boolean)]

def linkRest : String := "#top.wide.red(title=old, class=kind, data-q=\"it's\", hidden, title=name)"

/-- A value that would end the attribute and start another, if it were not escaped. -/
def hostile (_ : String) : String := "' onclick='run()"

theorem read_openingTag_link : parse "a" linkRest = .ok link ∧ link.EscapesAttributes ∧
    ∃ html, link.openingTag.filled? (link.evaluations hostile) = some html ∧
      Html.readOpeningTag html.toList = some ("a", link.shownAttributes hostile) ∧
      ((link.shownAttributes hostile).map (·.1)).Nodup ∧
      ∀ a ∈ link.shownAttributes hostile, ∀ text ∈ a.2, '\'' ∉ text.toList := by
  have htag : ∀ c ∈ "a".toList, isKeywordChar c = true := List.all_eq_true.mp (by decide)
  have hparse : parse "a" linkRest = .ok link := by decide +kernel
  have hescapes : link.EscapesAttributes :=
    ⟨by simp [link, AttributeValue.Escaped], by simp [link, AttributeValue.Escaped],
      by simp [link, AttributeValue.Escaped]⟩
  exact ⟨hparse, hescapes, read_openingTag htag hparse hescapes hostile⟩

example : link.shownAttributes hostile =
    [("id", some "top"), ("class", some "wide red &#39; onclick=&#39;run()"),
      ("title", some "&#39; onclick=&#39;run()"), ("data-q", some "it&#39;s"), ("hidden", none)] := by
  decide +kernel

end Element

end Stencil
