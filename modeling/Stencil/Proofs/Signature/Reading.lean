/-
Reading a signature adds nothing to it: its name, and the names and declarations of its parameters,
are made of characters of the text it was read from (`parse_readFrom`). So a signature that was read
from one line fits into one line.
-/
import Stencil.Proofs.Lists
import Stencil.Proofs.Nesting.Cuts
import Stencil.Proofs.Text.Trimmed
import Stencil.Signature

namespace Stencil

open Text

/-- The texts of a parameter are made of characters of the source. -/
structure Parameter.ReadFrom (source : List Char) (p : Parameter) : Prop where
  name : p.name.toList ⊆ source
  declaration : p.declaration.toList ⊆ source

/-- The texts of a signature are made of characters of the source. -/
structure Signature.ReadFrom (source : List Char) (s : Signature) : Prop where
  name : s.name.toList ⊆ source
  parameters : ∀ p ∈ s.parameters, p.ReadFrom source

theorem Parameter.ReadFrom.mono {cs ds : List Char} {p : Parameter} (h : p.ReadFrom cs)
    (hsub : cs ⊆ ds) : p.ReadFrom ds :=
  ⟨List.Subset.trans h.name hsub, List.Subset.trans h.declaration hsub⟩

/-- A declaration is kept as it is and named by its leading identifier. -/
theorem Parameter.eq_of_parse {cs : List Char} {p : Parameter} (h : Parameter.parse cs = .ok p) :
    p.declaration.toList = cs ∧ isIdentifier p.name.toList = true ∧
      (Parameter.binding cs).takeWhile isIdentifierChar = p.name.toList := by
  unfold Parameter.parse at h
  dsimp only at h
  split at h
  · next hname =>
    cases h
    simpa only [String.toList_ofList, true_and, and_true] using hname
  · cases h

theorem Parameter.binding_subset (cs : List Char) : Parameter.binding cs ⊆ cs := by
  unfold Parameter.binding
  split
  · next rest =>
    intro c hc
    have hrest := trimStart_subset rest hc
    simp [hrest]
  · exact List.Subset.refl _

theorem Parameter.parse_readFrom {cs : List Char} {p : Parameter}
    (h : Parameter.parse cs = .ok p) : p.ReadFrom cs := by
  obtain ⟨hdeclaration, -, hname⟩ := Parameter.eq_of_parse h
  refine ⟨?_, by rw [hdeclaration]; exact List.Subset.refl _⟩
  rw [← hname]
  exact List.Subset.trans (List.takeWhile_prefix _).subset (Parameter.binding_subset cs)

namespace Signature

/-- Every parameter of a list is read from what stands, trimmed, between two commas. -/
theorem mem_of_parseParameters {name : String} {cs : List Char} {ps : List Parameter}
    (h : parseParameters name cs = .ok ps) : ∀ p ∈ ps, ∃ parts part,
      Nesting.splitTopLevel? cs ',' = some parts ∧ part ∈ parts ∧ trim part ≠ [] ∧
        Parameter.parse (trim part) = .ok p := by
  unfold parseParameters at h
  split at h
  · cases h
  · next parts hparts =>
    intro p hp
    obtain ⟨cut, hcut, hparse⟩ := Lists.mem_of_mapM_eq_ok h p hp
    obtain ⟨hmem, hne⟩ := List.mem_filter.mp hcut
    obtain ⟨part, hpart, rfl⟩ := List.mem_map.mp hmem
    exact ⟨parts, part, hparts, hpart, by simpa using hne, hparse⟩

theorem parseParameters_readFrom {name : String} {cs : List Char} {ps : List Parameter}
    (h : parseParameters name cs = .ok ps) : ∀ p ∈ ps, p.ReadFrom cs := by
  intro p hp
  obtain ⟨parts, part, hparts, hpart, -, hparse⟩ := mem_of_parseParameters h p hp
  have hsub : trim part ⊆ cs :=
    List.Subset.trans (trim_subset part) (Nesting.subset_of_splitTopLevel? hparts part hpart)
  exact (Parameter.parse_readFrom hparse).mono hsub

/-- What is read after a name has that name, and no parameters or those of a group. -/
theorem parseRest_cases {name : String} {rest : List Char} {s : Signature}
    {warnings : List Warning} (h : parseRest name rest = .ok (s, warnings)) :
    s.name = name ∧ (s.parameters = [] ∨ ∃ group, Nesting.closeGroup? rest = some group ∧
      parseParameters name group.before = .ok s.parameters) := by
  unfold parseRest at h
  split at h
  · cases h
    exact ⟨rfl, .inl rfl⟩
  · split at h
    · cases h
    · next group hgroup =>
      split at h
      · cases h
      split at h
      · cases h
        exact ⟨rfl, .inl rfl⟩
      split at h
      · next parameters hparameters =>
        cases h
        exact ⟨rfl, .inr ⟨group, hgroup, hparameters⟩⟩
      · cases h
  · cases h

theorem parseRest_readFrom {name : String} {rest source : List Char} {s : Signature}
    {warnings : List Warning} (h : parseRest name rest = .ok (s, warnings))
    (hname : name.toList ⊆ source) (hrest : rest ⊆ source) : s.ReadFrom source := by
  obtain ⟨rfl, hnil | ⟨group, hgroup, hparameters⟩⟩ := parseRest_cases h
  · exact ⟨hname, by simp [hnil]⟩
  · refine ⟨hname, fun p hp => ?_⟩
    have hsub := List.Subset.trans (Nesting.before_subset_of_closeGroup? hgroup) hrest
    exact (parseParameters_readFrom hparameters p hp).mono hsub

/-- The name that a text starts with. -/
def leadingName (text : String) : List Char := (trim text.toList).takeWhile isIdentifierChar

/-- What follows the name that a text starts with. -/
def afterName (text : String) : List Char :=
  trimStart ((trim text.toList).dropWhile isIdentifierChar)

theorem parse_eq (text : String) : parse text =
    if isIdentifier (leadingName text) then
      parseRest (String.ofList (leadingName text)) (afterName text)
    else .error (.badComponentName (String.ofList (trim text.toList))) := rfl

/-- A text that is read starts with an identifier. -/
theorem parse_cases {text : String} {s : Signature} {warnings : List Warning}
    (h : parse text = .ok (s, warnings)) : isIdentifier (leadingName text) = true ∧
      parseRest (String.ofList (leadingName text)) (afterName text) = .ok (s, warnings) := by
  rw [parse_eq] at h
  split at h
  · next hname => exact ⟨hname, h⟩
  · cases h

/-- **A signature is made of what it was read from.** -/
theorem parse_readFrom {text : String} {s : Signature} {warnings : List Warning}
    (h : parse text = .ok (s, warnings)) : s.ReadFrom text.toList := by
  refine parseRest_readFrom (parse_cases h).2 ?_ ?_
  · rw [String.toList_ofList]
    exact List.Subset.trans (List.takeWhile_prefix _).subset (trim_subset _)
  · exact List.Subset.trans (trimStart_subset _)
      (List.Subset.trans (List.dropWhile_suffix _).subset (trim_subset _))

/-- A component is named by an identifier. -/
theorem isIdentifier_of_parse {text : String} {s : Signature} {warnings : List Warning}
    (h : parse text = .ok (s, warnings)) : isIdentifier s.name.toList = true := by
  obtain ⟨hname, hrest⟩ := parse_cases h
  rw [(parseRest_cases hrest).1, String.toList_ofList]
  exact hname

/-- No text of the signature holds a line feed. -/
structure OneLine (s : Signature) : Prop where
  name : '\n' ∉ s.name.toList
  names : ∀ p ∈ s.parameters, '\n' ∉ p.name.toList
  declarations : ∀ p ∈ s.parameters, '\n' ∉ p.declaration.toList

theorem ReadFrom.oneLine {source : List Char} {s : Signature} (h : s.ReadFrom source)
    (hfeed : '\n' ∉ source) : s.OneLine where
  name hmem := hfeed (h.name hmem)
  names p hp hmem := hfeed ((h.parameters p hp).name hmem)
  declarations p hp hmem := hfeed ((h.parameters p hp).declaration hmem)

end Signature

end Stencil
