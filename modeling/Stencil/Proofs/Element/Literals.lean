/-
Texts as double-quoted strings. Backslashes, quotes, line feeds and tabs are escaped. What is
written is atoms that stand for the text (`exists_atoms_quote`), so it is decoded to the text that
was quoted, as long as that has no apostrophe.
-/
import Stencil.Proofs.Element.Decoding

namespace Stencil

open Nesting

/-- A character as it is written in a double-quoted string. -/
def quoteChar (c : Char) : List Char :=
  if c = '\\' then ['\\', '\\']
  else if c = '"' then ['\\', '"']
  else if c = '\n' then ['\\', 'n']
  else if c = '\t' then ['\\', 't']
  else [c]

/-- What stands between the quotes of a double-quoted string. -/
def quoteChars (cs : List Char) : List Char := cs.flatMap quoteChar

/-- A text as a double-quoted string. -/
def quote (cs : List Char) : List Char := '"' :: (quoteChars cs ++ ['"'])

/-- A character is written as an atom that stands for it. -/
theorem exists_atom_quoteChar (c : Char) :
    ∃ part : Atom stringSpecial, part.print = quoteChar c ∧ part.char = c := by
  unfold quoteChar
  split_ifs with hslash hquote hfeed htab
  · exact ⟨.escape '\\', rfl, hslash.symm⟩
  · exact ⟨.escape '"', rfl, hquote.symm⟩
  · exact ⟨.escape 'n', rfl, hfeed.symm⟩
  · exact ⟨.escape 't', rfl, htab.symm⟩
  · exact ⟨.plain c (by simp [stringSpecial, hslash, hquote]), rfl, rfl⟩

theorem exists_atoms_quote (cs : List Char) :
    ∃ parts, quote cs = printString parts ∧ parts.map Atom.char = cs := by
  have hparts : ∃ parts : List (Atom stringSpecial),
      parts.flatMap Atom.print = quoteChars cs ∧ parts.map Atom.char = cs := by
    induction cs with
    | nil => exact ⟨[], rfl, rfl⟩
    | cons c cs ih =>
      obtain ⟨part, hprint, hchar⟩ := exists_atom_quoteChar c
      obtain ⟨parts, hprints, hchars⟩ := ih
      refine ⟨part :: parts, ?_, by rw [List.map_cons, hchar, hchars]⟩
      rw [List.flatMap_cons, hprint, hprints, quoteChars, quoteChars, List.flatMap_cons]
  obtain ⟨parts, hprints, hchars⟩ := hparts
  exact ⟨parts, by rw [quote, printString, hprints], hchars⟩

namespace Element

theorem flatMap_protectChar {cs : List Char} (h : '\'' ∉ cs) : cs.flatMap protectChar = cs := by
  induction cs with
  | nil => rfl
  | cons c cs ih =>
    rw [List.mem_cons, not_or] at h
    rw [List.flatMap_cons, ih h.2, protectChar, if_neg (Ne.symm h.1), List.singleton_append]

theorem literalText_quote {cs : List Char} (h : '\'' ∉ cs) : literalText (quote cs) = cs := by
  obtain ⟨parts, hquote, hchars⟩ := exists_atoms_quote cs
  rw [hquote, literalText_printString, hchars, flatMap_protectChar h]

end Element

end Stencil
