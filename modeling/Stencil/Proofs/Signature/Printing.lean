/-
Signatures print and read back. A signature is printed as the component's name and, if it has
parameters, their declarations in parentheses. Declarations that are pieces of host-language text
are told apart at the commas between them, and each is named by its leading identifier
(`parse_print`).

A parameter list may be written in other ways too: with any blanks around the declarations and with a
comma after the last (`Entries`), and the name with any blanks around it (`parse_named`).
-/
import Stencil.Proofs.Nesting.Cuts
import Stencil.Proofs.Nesting.WellNested
import Stencil.Proofs.Text.Names
import Stencil.Signature

namespace Stencil

open Text Nesting

/-- The declaration is a piece of text that starts with the parameter's name, behind a `mut ` that
is not part of it. -/
@[mk_iff]
structure Parameter.Printable (p : Parameter) : Prop where
  piece : IsPiece p.declaration.toList
  name : isIdentifier p.name.toList = true
  leading : (Parameter.binding p.declaration.toList).takeWhile isIdentifierChar = p.name.toList

instance Parameter.decidablePrintable (p : Parameter) : Decidable p.Printable :=
  decidable_of_iff _ (Parameter.printable_iff p).symm

theorem Parameter.parse_declaration {p : Parameter} (h : p.Printable) :
    Parameter.parse p.declaration.toList = .ok p := by
  rw [Parameter.parse, h.leading]
  simp only [h.name, if_true, String.ofList_toList]

namespace Signature

/-- The declarations of parameters. -/
def declarations (ps : List Parameter) : List (List Char) := ps.map fun p => p.declaration.toList

/-- What follows the name of a component. -/
def printParameters : List Parameter → List Char
  | [] => []
  | p :: ps => '(' :: (commaSeparated (declarations (p :: ps)) ++ [')'])

def print (s : Signature) : List Char := s.name.toList ++ printParameters s.parameters

/-- Signatures that are read back: the name is an identifier, and so are those of the
parameters. -/
@[mk_iff]
structure Printable (s : Signature) : Prop where
  name : isIdentifier s.name.toList = true
  parameters : ∀ p ∈ s.parameters, p.Printable

instance decidablePrintable (s : Signature) : Decidable s.Printable :=
  decidable_of_iff _ (printable_iff s).symm

theorem mapM_declarations {ps : List Parameter} (h : ∀ p ∈ ps, p.Printable) :
    (declarations ps).mapM Parameter.parse = .ok ps := by
  induction ps with
  | nil => rfl
  | cons p ps ih =>
    rw [List.forall_mem_cons] at h
    have hps := ih h.2
    rw [declarations] at hps
    rw [declarations, List.map_cons, List.mapM_cons, Parameter.parse_declaration h.1, hps]
    rfl

/-! ## Parameter lists -/

/-- What stands between the commas of a parameter list: the declarations with blanks around them,
and after a last comma blanks alone. -/
inductive Entries : List Parameter → List (List Char) → Prop
  | nil : Entries [] []
  | trailing {gap : List Char} : allBlank gap = true → Entries [] [gap]
  | cons {p : Parameter} {ps : List Parameter} {entry : List Char} {entries : List (List Char)} :
      Padded p.declaration.toList entry → Entries ps entries → Entries (p :: ps) (entry :: entries)

namespace Entries

variable {ps : List Parameter} {entries : List (List Char)}

theorem isPart (he : Entries ps entries) (h : ∀ p ∈ ps, p.Printable) :
    ∀ entry ∈ entries, IsPart entry := by
  induction he with
  | nil => simp
  | trailing hgap => simpa using isPart_of_allBlank hgap
  | cons hpadded _ ih =>
    rw [List.forall_mem_cons] at h ⊢
    exact ⟨h.1.piece.isPart hpadded, ih h.2⟩

/-- Trimmed, and without the empty one, the entries are the declarations. -/
theorem filter_trim (he : Entries ps entries) (h : ∀ p ∈ ps, p.Printable) :
    (entries.map trim).filter (!·.isEmpty) = declarations ps := by
  induction he with
  | nil => rfl
  | @trailing gap hgap =>
    have hpadded : Padded [] gap := ⟨gap, [], hgap, rfl, (List.append_nil gap).symm⟩
    rw [List.map_singleton, hpadded.trim_eq]
    rfl
  | @cons p ps entry entries hpadded _ ih =>
    rw [List.forall_mem_cons] at h
    have hne : (!p.declaration.toList.isEmpty) = true := by simpa using h.1.piece.ne_nil
    rw [List.map_cons, hpadded.trim_eq, h.1.piece.trimmed.trim_eq, List.filter_cons, if_pos hne,
      ih h.2]
    rfl

/-- A list with a declaration is not blank. -/
theorem not_blank (he : Entries ps entries) (hne : ps ≠ []) (h : ∀ p ∈ ps, p.Printable) :
    allBlank ([','].intercalate entries) = false := by
  cases he with
  | nil => exact absurd rfl hne
  | trailing => exact absurd rfl hne
  | @cons p ps entry entries hpadded =>
    have hpiece := (h p List.mem_cons_self).piece
    obtain ⟨c, cs, hcs⟩ := List.exists_cons_of_ne_nil hpiece.ne_nil
    obtain ⟨lead, trail, -, -, hentry⟩ := hpadded
    have hmem : c ∈ [','].intercalate (entry :: entries) :=
      subset_intercalate [','] List.mem_cons_self (by simp [hentry, hcs])
    have hc : isBlank c = false := hpiece.trimmed.head c (by rw [hcs]; rfl)
    rw [← Bool.not_eq_true]
    intro hblank
    rw [List.all_eq_true.mp hblank c hmem] at hc
    cases hc

end Entries

/-- **A parameter list is read as its declarations**, with any blanks around them and with a comma
after the last or without. -/
theorem parseRest_entries {name : String} {ps : List Parameter} {entries : List (List Char)}
    (he : Entries ps entries) (hne : ps ≠ []) (h : ∀ p ∈ ps, p.Printable) :
    parseRest name ('(' :: ([','].intercalate entries ++ [')'])) = .ok (⟨name, ps⟩, []) := by
  have hparts := he.isPart h
  have hentries : entries ≠ [] := by
    rintro rfl
    cases he
    exact hne rfl
  have hnested : WellNested ([','].intercalate entries) :=
    wellNested_intercalate (by decide) fun p hp => (hparts p hp).nested
  have hgroup := closeGroup?_group hnested []
  have hparameters : parseParameters name ([','].intercalate entries) = .ok ps := by
    simp only [parseParameters, splitTopLevel?_parts hentries hparts, he.filter_trim h]
    exact mapM_declarations h
  have hafter : allBlank [] = true := rfl
  simp only [parseRest, hgroup, he.not_blank hne h, hafter, hparameters]
  rfl

/-- The entries of a printed list: a space stands in front of all but the first. -/
theorem entries_spaced (p : Parameter) (ps : List Parameter) :
    Entries (p :: ps) (p.declaration.toList :: (declarations ps).map (' ' :: ·)) := by
  refine .cons ⟨[], [], rfl, rfl, by simp⟩ ?_
  induction ps with
  | nil => exact .nil
  | cons q ps ih => exact .cons ⟨[' '], [], rfl, rfl, by simp⟩ ih

theorem parseRest_print {name : String} {ps : List Parameter} (h : ∀ p ∈ ps, p.Printable) :
    parseRest name (printParameters ps) = .ok (⟨name, ps⟩, []) := by
  cases ps with
  | nil => rfl
  | cons p ps =>
    rw [printParameters, declarations, List.map_cons, commaSeparated_eq_intercalate]
    exact parseRest_entries (entries_spaced p ps) (List.cons_ne_nil p ps) h

/-! ## Names -/

theorem trimmed_named {name rest : List Char} (hname : isIdentifier name = true)
    (hlast : ∀ c ∈ rest.getLast?, isBlank c = false) : Trimmed (name ++ rest) := by
  have hchars : ∀ c ∈ name, isBlank c = false := fun c hc =>
    isBlank_of_isIdentifierChar (isIdentifierChar_of_isIdentifier hname c hc)
  refine trimmed_of (fun c hc => ?_) fun c hc => ?_
  · cases name with
    | nil => cases hname
    | cons d ds =>
      cases hc
      exact hchars _ List.mem_cons_self
  · rw [List.getLast?_append, Option.mem_def, Option.or_eq_some_iff] at hc
    rcases hc with hc | ⟨-, hc⟩
    · exact hlast c hc
    · exact hchars c (List.mem_of_getLast? hc)

/-- A name may have blanks around it. What follows it is read for itself. -/
theorem parse_named {name : String} {gap rest cs : List Char}
    (hname : isIdentifier name.toList = true) (hgap : allBlank gap = true)
    (hhead : ∀ c ∈ rest.head?, isIdentifierChar c = false ∧ isBlank c = false)
    (hlast : ∀ c ∈ (gap ++ rest).getLast?, isBlank c = false)
    (hcs : Padded (name.toList ++ (gap ++ rest)) cs) :
    parse (String.ofList cs) = parseRest name rest := by
  have hchars := isIdentifierChar_of_isIdentifier hname
  have hend : ∀ c ∈ (gap ++ rest).head?, isIdentifierChar c = false := by
    intro c hc
    cases gap with
    | nil => exact (hhead c hc).1
    | cons d gap =>
      cases hc
      rw [allBlank, List.all_cons, Bool.and_eq_true] at hgap
      by_contra hident
      rw [isBlank_of_isIdentifierChar (by simpa using hident)] at hgap
      cases hgap.1
  have htrim : trim cs = name.toList ++ (gap ++ rest) :=
    hcs.trim_eq.trans (trimmed_named hname hlast).trim_eq
  have hrest : trimStart (gap ++ rest) = rest := by
    rw [trimStart_append_of_blank hgap, trimStart_of_head fun c hc => (hhead c hc).2]
  simp only [parse, String.toList_ofList, htrim, takeWhile_run hchars hend,
    dropWhile_run hchars hend, hrest, hname, if_true, String.ofList_toList]

theorem head_printParameters (ps : List Parameter) :
    ∀ c ∈ (printParameters ps).head?, isIdentifierChar c = false ∧ isBlank c = false := by
  cases ps with
  | nil => simp [printParameters]
  | cons p ps =>
    rintro c ⟨⟩
    decide

theorem last_printParameters (ps : List Parameter) :
    ∀ c ∈ (printParameters ps).getLast?, isBlank c = false := by
  cases ps with
  | nil => simp [printParameters]
  | cons p ps =>
    rw [printParameters, ← List.cons_append, List.getLast?_concat]
    rintro c ⟨⟩
    decide

theorem trimmed_print {s : Signature} (h : s.Printable) : Trimmed s.print :=
  trimmed_named h.name (last_printParameters s.parameters)

/-- **A printed signature is read back, without a warning.** -/
theorem parse_print {s : Signature} (h : s.Printable) :
    parse (String.ofList s.print) = .ok (s, []) := by
  have hpadded : Padded s.print s.print := ⟨[], [], rfl, rfl, by simp⟩
  have hgap : allBlank [] = true := rfl
  rw [parse_named h.name hgap (head_printParameters s.parameters)
    (last_printParameters s.parameters) hpadded]
  exact parseRest_print h.parameters

end Signature

end Stencil
