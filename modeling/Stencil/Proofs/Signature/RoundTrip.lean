/-
Signatures written and read. A signature with parameters may be written with any blanks around its
name, around each declaration and after the list, and with a comma after the last declaration
(`Spelling`).

`signature_round_trip`: every spelling of a signature that can be printed is read as that signature,
without a warning. Whatever is read has identifiers for names, and each declaration of it is a
trimmed text that starts with the name of its parameter.
-/
import Stencil.Proofs.Signature.Printing
import Stencil.Proofs.Signature.Reading

namespace Stencil

open Text Nesting

/-- A parameter as it is read: its declaration is a trimmed text, and its name the longest run of
identifier characters that the declaration starts with, behind a `mut ` that is not part of it. -/
structure Parameter.Declared (p : Parameter) : Prop where
  name : isIdentifier p.name.toList = true
  trimmed : Trimmed p.declaration.toList
  ne_nil : p.declaration.toList ≠ []
  leading : (Parameter.binding p.declaration.toList).takeWhile isIdentifierChar = p.name.toList

namespace Signature

/-- A signature as it is read. -/
structure Declared (s : Signature) : Prop where
  name : isIdentifier s.name.toList = true
  parameters : ∀ p ∈ s.parameters, p.Declared

theorem declared_of_parseParameters {name : String} {cs : List Char} {ps : List Parameter}
    (h : parseParameters name cs = .ok ps) : ∀ p ∈ ps, p.Declared := by
  intro p hp
  obtain ⟨parts, part, -, -, hne, hparse⟩ := mem_of_parseParameters h p hp
  obtain ⟨hdeclaration, hname, hleading⟩ := Parameter.eq_of_parse hparse
  constructor
  case name => exact hname
  case trimmed => rw [hdeclaration]; exact trimmed_trim part
  case ne_nil => rwa [hdeclaration]
  case leading => rw [hdeclaration, hleading]

theorem declared_of_parse {text : String} {s : Signature} {warnings : List Warning}
    (h : parse text = .ok (s, warnings)) : s.Declared := by
  refine ⟨isIdentifier_of_parse h, ?_⟩
  rcases (parseRest_cases (parse_cases h).2).2 with hnil | ⟨group, -, hparameters⟩
  · simp [hnil]
  · exact declared_of_parseParameters hparameters

/-! ## Spellings -/

/-- A way to write a signature that has parameters. -/
structure Spelling (s : Signature) where
  /-- Blanks before the name. -/
  lead : List Char
  /-- Blanks between the name and the list. -/
  gap : List Char
  /-- What stands between the commas of the list. -/
  entries : List (List Char)
  /-- Blanks after the list. -/
  tail : List Char
  lead_blank : allBlank lead = true
  gap_blank : allBlank gap = true
  entries_declare : Entries s.parameters entries
  tail_blank : allBlank tail = true

def Spelling.text {s : Signature} (w : Spelling s) : String :=
  String.ofList (w.lead ++ (s.name.toList ++ (w.gap ++
    '(' :: ([','].intercalate w.entries ++ ')' :: w.tail))))

theorem parse_spelling {s : Signature} (h : s.Printable) (hne : s.parameters ≠ [])
    (w : Spelling s) : parse w.text = .ok (s, []) := by
  rw [← parseRest_entries w.entries_declare hne h.parameters]
  refine parse_named h.name w.gap_blank ?_ ?_ ⟨w.lead, w.tail, w.lead_blank, w.tail_blank, by simp⟩
  · rintro c ⟨⟩
    decide
  · rw [← List.cons_append, ← List.append_assoc, List.getLast?_concat]
    rintro c ⟨⟩
    decide

/-- **Signatures are read back, however they are spelled**, and what is read is named by identifiers
that the declarations start with. -/
theorem signature_round_trip :
    (∀ s : Signature, s.Printable → s.parameters ≠ [] → ∀ w : Spelling s,
      parse w.text = .ok (s, [])) ∧
    ∀ (text : String) (s : Signature) (warnings : List Warning),
      parse text = .ok (s, warnings) → s.Declared :=
  ⟨fun _ h hne w => parse_spelling h hne w, fun _ _ _ h => declared_of_parse h⟩

/-- A callback and an array, with commas in groups and a `mut ` in front. -/
def cardSignature : Signature :=
  ⟨"Card", [⟨"cb", "cb func(a, b int)"⟩, ⟨"rows", "mut  rows: [u8; f(',', 2)]"⟩]⟩

/-- Spaces and tabs wherever they may stand, and a comma after the last declaration. -/
def cardSpelling : Spelling cardSignature where
  lead := [' ']
  gap := ['\t']
  entries := [" cb func(a, b int)\t".toList, "mut  rows: [u8; f(',', 2)]".toList, [' ']]
  tail := ['\n', ' ']
  lead_blank := by decide
  gap_blank := by decide
  entries_declare := .cons ⟨[' '], ['\t'], by decide, by decide, by decide⟩
    (.cons ⟨[], [], by decide, by decide, by decide⟩ (.trailing (by decide)))
  tail_blank := by decide

theorem signature_round_trip_card :
    parse " Card\t( cb func(a, b int)\t,mut  rows: [u8; f(',', 2)], )\n " = .ok (cardSignature, []) ∧
      cardSignature.Declared := by
  have htext : cardSpelling.text =
      " Card\t( cb func(a, b int)\t,mut  rows: [u8; f(',', 2)], )\n " := by decide
  have hparse := signature_round_trip.1 cardSignature (by decide) (by decide) cardSpelling
  rw [htext] at hparse
  exact ⟨hparse, signature_round_trip.2 _ _ _ hparse⟩

end Signature

end Stencil
