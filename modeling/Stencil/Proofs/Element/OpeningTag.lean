/-
The shape of an opening tag. The tag is written piece by piece, each text joined to the text before
it, so only an expression ends a text; and behind an expression stands at least the apostrophe that
closes its value. `openingTag_eq` says so in one pass over the attributes, which carries along the
text that is still open. What the class is made of is said once (`mergedClass_cases`).

`openingTag_shape`: the tag alternates between texts and the expressions of the element, a text
first and a text last, and there is nothing left to coalesce.
-/
import Stencil.Element
import Stencil.Proofs.Instruction.Normal

namespace Stencil

/-! ## Texts with expressions between them -/

namespace Instructions

/-- Texts that are not empty, with one expression between each two. -/
inductive Alternating : Instructions → Prop
  | text {text : String} (hne : text ≠ "") : Alternating [.literal text]
  | cons {text expr : String} {escape : Bool} {rest : Instructions} (hne : text ≠ "")
      (hrest : Alternating rest) : Alternating (.literal text :: .expression expr escape :: rest)

/-- The expressions that stand directly in a body, each with whether it is escaped. -/
def expressions (body : Instructions) : List (String × Bool) :=
  body.filterMap fun
    | .expression expr escape => some (expr, escape)
    | _ => none

@[simp] theorem expressions_nil : expressions [] = [] := rfl

@[simp] theorem expressions_literal_cons (text : String) (is : Instructions) :
    expressions (.literal text :: is) = expressions is := rfl

@[simp] theorem expressions_expression_cons (expr : String) (escape : Bool) (is : Instructions) :
    expressions (.expression expr escape :: is) = (expr, escape) :: expressions is := rfl

theorem Alternating.normal {body : Instructions} (h : body.Alternating) : body.Normal := by
  induction h with
  | text hne => exact ⟨hne, trivial, trivial⟩
  | cons hne _ ih => exact ⟨hne, trivial, trivial, trivial, ih⟩

theorem Alternating.single_iff {body : Instructions} (h : body.Alternating) :
    (∃ text, body = [.literal text]) ↔ body.expressions = [] := by
  cases h with
  | text hne => simp
  | cons hne hrest => simp

end Instructions

/-! ## The class -/

/-- All that the class can be: the one that is given, the shorthands, both joined to a text, or an
expression behind the shorthands. -/
theorem Element.mergedClass_cases {e : Element} {lead : String} {value : AttributeValue}
    (h : e.mergedClass = some (lead, value)) :
    (e.explicitClass = some value ∧ lead = "") ∨
      (value = .literal (" ".intercalate e.classes) ∧ lead = "") ∨
      (∃ text, e.explicitClass = some (.literal text) ∧
        value = .literal (" ".intercalate e.classes ++ " " ++ text) ∧ lead = "") ∨
      ∃ expr escape, e.explicitClass = some (.expression expr escape) ∧
        value = .expression expr escape ∧ lead = " ".intercalate e.classes ++ " " := by
  unfold mergedClass at h
  dsimp only at h
  split at h
  · obtain ⟨v, hv, heq⟩ := Option.map_eq_some_iff.mp h
    cases heq
    exact .inl ⟨hv, rfl⟩
  · right
    split at h
    · cases h
      exact .inl ⟨rfl, rfl⟩
    · cases h
      exact .inl ⟨rfl, rfl⟩
    · next text htext =>
      cases h
      exact .inr (.inl ⟨text, htext, rfl, rfl⟩)
    · next expr escape hexpr =>
      cases h
      exact .inr (.inr ⟨expr, escape, hexpr, rfl, rfl⟩)

/-! ## The tag in one pass -/

/-- The expression that is the value, with whether it is escaped. -/
def AttributeValue.expression? : AttributeValue → Option (String × Bool)
  | .expression expr escape => some (expr, escape)
  | _ => none

namespace Element

open Instructions

/-- The values an element gives: of the id, of the class, of the other attributes. -/
def values (e : Element) : List AttributeValue :=
  e.id.toList ++ e.explicitClass.toList ++ e.attributes.map (·.2)

/-- The rest of a tag in which `text` is written since the last expression. -/
def tagFrom : String → List (String × String × AttributeValue) → Instructions
  | text, [] => [.literal (text ++ ">")]
  | text, (name, _, .boolean) :: attributes => tagFrom (text ++ " " ++ name) attributes
  | text, (name, lead, .literal value) :: attributes =>
    tagFrom (text ++ " " ++ name ++ "='" ++ lead ++ value ++ "'") attributes
  | text, (name, lead, .expression expr escape) :: attributes =>
    .literal (text ++ " " ++ name ++ "='" ++ lead) :: .expression expr escape ::
      tagFrom "'" attributes

section

variable (front : Instructions) (text name lead : String)

theorem writeAttribute_boolean : writeAttribute (front ++ [.literal text]) name lead .boolean =
    front ++ [.literal (text ++ " " ++ name)] := by
  simp only [writeAttribute, pushLiteral_concat_literal]

theorem writeAttribute_literal (value : String) :
    writeAttribute (front ++ [.literal text]) name lead (.literal value) =
      front ++ [.literal (text ++ " " ++ name ++ "='" ++ lead ++ value ++ "'")] := by
  simp only [writeAttribute, pushLiteral_concat_literal]

/-- The apostrophe behind an expression is a text of its own. -/
theorem writeAttribute_expression (expr : String) (escape : Bool) :
    writeAttribute (front ++ [.literal text]) name lead (.expression expr escape) =
      front ++ [.literal (text ++ " " ++ name ++ "='" ++ lead), .expression expr escape] ++
        [.literal "'"] := by
  simp only [writeAttribute, pushLiteral_concat_literal]
  rw [pushLiteral_concat_expression _ _ _ (by decide)]
  simp

end

theorem foldl_writeAttribute_eq (attributes : List (String × String × AttributeValue))
    (front : Instructions) (text : String) :
    pushLiteral (attributes.foldl (fun out (name, lead, value) =>
      writeAttribute out name lead value) (front ++ [.literal text])) ">" =
        front ++ tagFrom text attributes := by
  induction attributes generalizing front text with
  | nil => exact pushLiteral_concat_literal front text ">"
  | cons a attributes ih =>
    obtain ⟨name, lead, value⟩ := a
    change pushLiteral (attributes.foldl _
      (writeAttribute (front ++ [.literal text]) name lead value)) ">" = _
    cases value with
    | boolean => rw [writeAttribute_boolean, ih, tagFrom]
    | literal value => rw [writeAttribute_literal, ih, tagFrom]
    | expression expr escape =>
      rw [writeAttribute_expression, ih, tagFrom, List.append_assoc]
      rfl

/-- **The opening tag in one pass.** -/
theorem openingTag_eq (e : Element) :
    e.openingTag = tagFrom ("<" ++ e.tag) e.writtenAttributes := by
  have hhead : pushLiteral (pushLiteral [] "<") e.tag = [] ++ [.literal ("<" ++ e.tag)] :=
    pushLiteral_concat_literal [] "<" e.tag
  rw [openingTag, hhead]
  exact foldl_writeAttribute_eq e.writtenAttributes [] ("<" ++ e.tag)

section

variable (text : String) (attributes : List (String × String × AttributeValue))

theorem alternating_tagFrom : (tagFrom text attributes).Alternating := by
  fun_induction tagFrom text attributes with
  | case1 => exact .text (by simp)
  | case2 _ _ _ _ ih => exact ih
  | case3 _ _ _ _ _ ih => exact ih
  | case4 _ _ _ _ _ _ ih => exact .cons (by simp) ih

theorem tagFrom_starts :
    ∃ more rest, tagFrom text attributes = .literal (text ++ more) :: rest := by
  fun_induction tagFrom text attributes with
  | case1 text => exact ⟨">", [], rfl⟩
  | case2 text name _ _ ih =>
    obtain ⟨more, rest, h⟩ := ih
    exact ⟨" " ++ name ++ more, rest, by rw [h]; simp [String.append_assoc]⟩
  | case3 text name lead value _ ih =>
    obtain ⟨more, rest, h⟩ := ih
    exact ⟨" " ++ name ++ "='" ++ lead ++ value ++ "'" ++ more, rest,
      by rw [h]; simp [String.append_assoc]⟩
  | case4 text name lead expr escape attributes =>
    exact ⟨" " ++ name ++ "='" ++ lead, .expression expr escape :: tagFrom "'" attributes,
      by simp [String.append_assoc]⟩

theorem tagFrom_ends :
    ∃ front last, tagFrom text attributes = front ++ [.literal (last ++ ">")] := by
  fun_induction tagFrom text attributes with
  | case1 text => exact ⟨[], text, rfl⟩
  | case2 _ _ _ _ ih => exact ih
  | case3 _ _ _ _ _ ih => exact ih
  | case4 _ _ _ _ _ _ ih =>
    obtain ⟨front, last, h⟩ := ih
    exact ⟨_ :: _ :: front, last, by rw [h]; rfl⟩

theorem expressions_tagFrom :
    (tagFrom text attributes).expressions = attributes.filterMap fun a => a.2.2.expression? := by
  fun_induction tagFrom text attributes with
  | case1 => rfl
  | case2 _ _ _ _ ih => simpa [AttributeValue.expression?] using ih
  | case3 _ _ _ _ _ ih => simpa [AttributeValue.expression?] using ih
  | case4 _ _ _ _ _ _ ih => simpa [AttributeValue.expression?] using ih

end

/-! ## What the element gives -/

/-- The shorthands are texts: the merged class is an expression if the given class is one. -/
theorem expressions_mergedClass (e : Element) :
    (e.mergedClass.toList.filterMap fun a => a.2.expression?) =
      e.explicitClass.toList.filterMap AttributeValue.expression? := by
  unfold mergedClass
  dsimp only
  split
  · cases e.explicitClass <;> rfl
  · cases e.explicitClass with
    | none => rfl
    | some value => cases value <;> rfl

theorem expressions_openingTag (e : Element) :
    e.openingTag.expressions = e.values.filterMap AttributeValue.expression? := by
  rw [openingTag_eq, expressions_tagFrom]
  simp only [writtenAttributes, values, Option.toList_map, List.filterMap_append,
    List.filterMap_map, Function.comp_def, expressions_mergedClass]

/-- **The shape of the opening tag.** It alternates between texts, none of them empty, and
expressions. The first text begins with the tag, the last text ends it, and the expressions are
those that the id, the class and the other attributes have for values, in this order. So a tag is a
single text exactly if no value is an expression, and coalescing finds nothing to join. -/
theorem openingTag_shape (e : Element) :
    e.openingTag.Alternating ∧
      (∃ more rest, e.openingTag = .literal ("<" ++ e.tag ++ more) :: rest) ∧
      (∃ front last, e.openingTag = front ++ [.literal (last ++ ">")]) ∧
      e.openingTag.expressions = e.values.filterMap AttributeValue.expression? ∧
      ((∃ text, e.openingTag = [.literal text]) ↔ ∀ v ∈ e.values, v.expression? = none) ∧
      e.openingTag.coalesce = e.openingTag := by
  have halternating : e.openingTag.Alternating := by
    rw [openingTag_eq]
    exact alternating_tagFrom _ _
  refine ⟨halternating, ?_, ?_, expressions_openingTag e, ?_,
    coalesce_of_normal _ halternating.normal⟩
  · rw [openingTag_eq]
    exact tagFrom_starts _ _
  · rw [openingTag_eq]
    exact tagFrom_ends _ _
  · rw [halternating.single_iff, expressions_openingTag, List.filterMap_eq_nil_iff]

end Element

end Stencil
