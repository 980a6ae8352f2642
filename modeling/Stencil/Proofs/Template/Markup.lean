/-
The markup of an element, said from what the element holds: a doctype in front of the document,
the opening tag with the id, the class and the other attributes, the content, the lines below, and
a closing tag unless the element is void. The class is the shorthands joined by spaces, the value
that is given, or the value behind the shorthands.

`lower_eq_markup`: the instructions that are made of an element are its markup.
-/
import Stencil.Options
import Stencil.Proofs.Element.OpeningTag

namespace Stencil

/-- What stands in an element before the lines below it. -/
def Content.markup : Content → Instructions
  | .empty => []
  | .text t => [.literal t]
  | .expression expr escape => [.expression expr escape]

namespace Element

/-- The class of an element, with the text in front of its value. -/
def tagClass (e : Element) : Option (String × AttributeValue) :=
  match e.classes, e.explicitClass with
  | [], value => value.map fun value => ("", value)
  | names, none | names, some .boolean => some ("", .literal (" ".intercalate names))
  | names, some (.literal text) => some ("", .literal (" ".intercalate names ++ " " ++ text))
  | names, some (.expression expr escape) =>
    some (" ".intercalate names ++ " ", .expression expr escape)

/-- The attributes that the opening tag shows, in order. -/
def tagAttributes (e : Element) : List (String × String × AttributeValue) :=
  (e.id.map fun value => ("id", "", value)).toList
    ++ (e.tagClass.map fun (lead, value) => ("class", lead, value)).toList
    ++ e.attributes.map fun (name, value) => (name, "", value)

/-- The element around what the lines below it stand for. -/
def markup (options : Options) (e : Element) (body : Instructions) : Instructions :=
  (if e.tag = "html" then [.literal "<!DOCTYPE html>"] else [])
    ++ tagFrom ("<" ++ e.tag) e.tagAttributes
    ++ e.content.markup
    ++ body
    ++ (if e.tag ∈ Html.voidTags ++ options.extraVoidTags then []
      else [.literal ("</" ++ e.tag ++ ">")])

theorem mergedClass_eq_tagClass {e : Element} (h : ∀ name ∈ e.classes, name ≠ "") :
    e.mergedClass = e.tagClass := by
  unfold mergedClass tagClass
  cases hclasses : e.classes with
  | nil => rfl
  | cons name names =>
    -- The first shorthand is not empty, so neither are the shorthands joined.
    have hname : name ≠ "" := h name (by rw [hclasses]; exact List.mem_cons_self)
    have hjoined : " ".intercalate (name :: names) ≠ "" := by
      cases names with
      | nil => simpa using hname
      | cons next names =>
        rw [String.intercalate_cons_of_ne_nil (List.cons_ne_nil next names)]
        simp [hname]
    rw [if_neg (by simpa using hjoined)]
    cases e.explicitClass with
    | none => rfl
    | some value => cases value <;> rfl

theorem lower_eq_markup (options : Options) {e : Element} (h : ∀ name ∈ e.classes, name ≠ "")
    (body : Instructions) : e.lower body (options.isVoidTag e.tag) = e.markup options body := by
  have hattributes : e.writtenAttributes = e.tagAttributes := by
    rw [writtenAttributes, mergedClass_eq_tagClass h]
    rfl
  have hvoid : options.isVoidTag e.tag = true ↔ e.tag ∈ Html.voidTags ++ options.extraVoidTags := by
    simp [Options.isVoidTag, Html.isVoidTag]
  have hcontent : contentInstructions e.content = e.content.markup := by cases e.content <;> rfl
  rw [lower, markup, openingTag_eq, hattributes, hcontent]
  simp only [hvoid, beq_iff_eq]
  rfl

end Element

end Stencil
