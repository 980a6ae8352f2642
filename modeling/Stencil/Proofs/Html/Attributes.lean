/-
Reading an opening tag with its attributes. After the name each attribute is a space, a name and,
when it has a value, the value between apostrophes; a `>` ends the tag and the text. What stands
between two apostrophes is read as it is, so a value ends at the first apostrophe it holds.

`readOpeningTag_print`: a tag that is printed from attributes whose names are made of the
characters of such names, and whose values hold no apostrophe, is read back with these attributes.
-/
import Stencil.Proofs.Html.Tags

namespace Stencil.Html

open Text

/-- A name, and a value if there is one. -/
abbrev Attribute := String × Option String

/-! ## Reading -/

/-- The value that may follow the name of an attribute, and what follows the value. -/
def readValue : List Char → Option (Option String × List Char)
  | '=' :: '\'' :: cs =>
    match cs.dropWhile (· != '\'') with
    | _ :: rest => some (some (String.ofList (cs.takeWhile (· != '\''))), rest)
    | [] => none
  | cs => some (none, cs)

theorem length_readValue {cs rest : List Char} {value : Option String}
    (h : readValue cs = some (value, rest)) : rest.length ≤ cs.length := by
  unfold readValue at h
  split at h
  · next cs =>
    split at h
    · next quote after hdrop =>
      cases h
      have := length_dropWhile_le (· != '\'') cs
      rw [hdrop] at this
      simp only [List.length_cons] at this ⊢
      omega
    · cases h
  · cases h
    exact Nat.le_refl _

/-- The attributes of an opening tag from the end of its name on, if the text ends with the tag. -/
def readAttributes (cs : List Char) : Option (List Attribute) :=
  match cs with
  | ['>'] => some []
  | ' ' :: cs =>
    let name := cs.takeWhile isAttributeChar
    if name.isEmpty then none
    else
      match _h : readValue (cs.dropWhile isAttributeChar) with
      | some (value, rest) => (readAttributes rest).map ((String.ofList name, value) :: ·)
      | none => none
  | _ => none
termination_by cs.length
decreasing_by
  have h1 := length_readValue _h
  have h2 := length_dropWhile_le isAttributeChar cs
  simp only [List.length_cons]
  omega

/-- The name and the attributes of the opening tag that a text consists of. -/
def readOpeningTag : List Char → Option (String × List Attribute)
  | '<' :: cs =>
    match readName cs with
    | some (name, rest) => (readAttributes rest).map fun attributes => (name, attributes)
    | none => none
  | _ => none

/-! ## Printing -/

/-- A value between apostrophes, if there is one. -/
def printValue : Option String → List Char
  | none => []
  | some value => '=' :: '\'' :: (value.toList ++ ['\''])

/-- An attribute behind a space. -/
def Attribute.print (a : Attribute) : List Char := ' ' :: (a.1.toList ++ printValue a.2)

/-- An opening tag with its attributes in order. -/
def printOpeningTag (name : String) (attributes : List Attribute) : List Char :=
  '<' :: (name.toList ++ (attributes.flatMap Attribute.print ++ ['>']))

/-- An attribute that says when printed what it is. -/
structure Attribute.Safe (a : Attribute) : Prop where
  nonempty : a.1 ≠ ""
  name : ∀ c ∈ a.1.toList, isAttributeChar c = true
  value : ∀ v ∈ a.2, '\'' ∉ v.toList

theorem readValue_none {cs : List Char} (h : ∀ c ∈ cs.head?, c ≠ '=') :
    readValue cs = some (none, cs) := by
  unfold readValue
  split
  · exact absurd rfl (h _ rfl)
  · rfl

theorem readValue_some {value : List Char} (h : '\'' ∉ value) (rest : List Char) :
    readValue ('=' :: '\'' :: (value ++ '\'' :: rest)) = some (some (String.ofList value), rest) := by
  have hrun : ∀ c ∈ value, (c != '\'') = true := by
    intro c hc
    simpa using fun heq : c = '\'' => h (heq ▸ hc)
  have hend : ∀ c ∈ ('\'' :: rest).head?, (c != '\'') = false := by simp
  simp only [readValue, takeWhile_run hrun hend, dropWhile_run hrun hend]

/-- What can follow an attribute ends its name and starts no value. -/
def EndsAttribute (rest : List Char) : Prop :=
  ∀ c ∈ rest.head?, isAttributeChar c = false ∧ c ≠ '='

theorem endsAttribute_print (attributes : List Attribute) :
    EndsAttribute (attributes.flatMap Attribute.print ++ ['>']) := by
  intro c hc
  cases attributes with
  | nil =>
    cases hc
    decide
  | cons a attributes =>
    cases hc
    decide

/-- The value is read up to where it ends, or there is none to read. -/
theorem readValue_print {value : Option String} (h : ∀ v ∈ value, '\'' ∉ v.toList)
    {rest : List Char} (hrest : EndsAttribute rest) :
    readValue (printValue value ++ rest) = some (value, rest) := by
  cases value with
  | none => exact readValue_none fun c hc => (hrest c hc).2
  | some v =>
    have := readValue_some (h v rfl) rest
    simpa [printValue] using this

theorem head?_printValue {rest : List Char} (hrest : EndsAttribute rest) (value : Option String) :
    ∀ c ∈ (printValue value ++ rest).head?, isAttributeChar c = false := by
  intro c hc
  cases value with
  | none => exact (hrest c hc).1
  | some v =>
    cases hc
    decide

theorem readAttributes_of_readValue {cs rest : List Char} {value : Option String}
    (hne : cs.takeWhile isAttributeChar ≠ [])
    (h : readValue (cs.dropWhile isAttributeChar) = some (value, rest)) :
    readAttributes (' ' :: cs) =
      (readAttributes rest).map ((String.ofList (cs.takeWhile isAttributeChar), value) :: ·) := by
  rw [readAttributes]
  simp only [List.isEmpty_iff, hne, if_false]
  split
  · next hread =>
    rw [h] at hread
    cases hread
    rfl
  · next hread =>
    rw [h] at hread
    cases hread

/-- One attribute is read, and reading goes on behind it. -/
theorem readAttributes_print_append {a : Attribute} (h : a.Safe) {rest : List Char}
    (hrest : EndsAttribute rest) :
    readAttributes (a.print ++ rest) = (readAttributes rest).map (a :: ·) := by
  have hend := head?_printValue hrest a.2
  have hname : (a.1.toList ++ (printValue a.2 ++ rest)).takeWhile isAttributeChar = a.1.toList :=
    takeWhile_run h.name hend
  have hvalue : readValue ((a.1.toList ++ (printValue a.2 ++ rest)).dropWhile isAttributeChar) =
      some (a.2, rest) := by
    rw [dropWhile_run h.name hend]
    exact readValue_print h.value hrest
  have hne : a.1.toList ≠ [] := by simpa using h.nonempty
  rw [Attribute.print, List.cons_append, List.append_assoc,
    readAttributes_of_readValue (by rwa [hname]) hvalue, hname, String.ofList_toList]

/-- Attributes that are printed are read back. -/
theorem readAttributes_print {attributes : List Attribute} (h : ∀ a ∈ attributes, a.Safe) :
    readAttributes (attributes.flatMap Attribute.print ++ ['>']) = some attributes := by
  induction attributes with
  | nil => rw [List.flatMap_nil, List.nil_append, readAttributes]
  | cons a attributes ih =>
    rw [List.forall_mem_cons] at h
    rw [List.flatMap_cons, List.append_assoc,
      readAttributes_print_append h.1 (endsAttribute_print attributes), ih h.2]
    rfl

/-- **A printed opening tag is read back**, name and attributes. -/
theorem readOpeningTag_print {name : String} {attributes : List Attribute} (hne : name ≠ "")
    (hname : ∀ c ∈ name.toList, isKeywordChar c = true) (h : ∀ a ∈ attributes, a.Safe) :
    readOpeningTag (printOpeningTag name attributes) = some (name, attributes) := by
  have hend : ∀ c ∈ (attributes.flatMap Attribute.print ++ ['>']).head?,
      isKeywordChar c = false := by
    intro c hc
    cases attributes with
    | nil =>
      cases hc
      decide
    | cons a attributes =>
      cases hc
      decide
  have hread := readName_run (by simpa using hne) hname hend
  rw [printOpeningTag, readOpeningTag]
  simp only [hread, readAttributes_print h, String.ofList_toList, Option.map_some]

example : readOpeningTag "<a href='/?x=1&amp;y' hidden>".toList =
    some ("a", [("href", some "/?x=1&amp;y"), ("hidden", none)]) := by decide +kernel

example : readOpeningTag "<a title='it's'>".toList = none := by decide +kernel

end Stencil.Html
