/-
Double-quoted strings as values. A text is taken for one string exactly when it is a quote, atoms
and a quote, an atom being an escape or a character that needs none (`isStringLiteral_iff`). The
reader of groups and the decoder of values go over the same atoms, so that the value is what the
atoms stand for, and the decoder never meets a backslash with nothing behind it
(`literalText_exact`).
-/
import Stencil.Proofs.Element.Quoting
import Stencil.Proofs.Nesting.Grammar

namespace Stencil

open Nesting

namespace Nesting

/-! ## Recognition -/

/-- Inside a string at the top level. -/
def quoted : Nesting := ⟨true, false, 0, false⟩

/-- Inside a string at the top level, right after a backslash. -/
def quotedEscape : Nesting := ⟨true, false, 0, true⟩

theorem feed_quoted {c : Char} (hslash : c ≠ '\\') (hquote : c ≠ '"') : quoted.feed c = quoted := by
  simp [feed, step, quoted, hslash, hquote]

theorem staysInString_atoms (parts : List (Atom stringSpecial)) (rest : List Char) :
    quoted.staysInString (parts.flatMap Atom.print ++ rest) = quoted.staysInString rest := by
  induction parts with
  | nil => rfl
  | cons part parts ih =>
    rw [List.flatMap_cons, List.append_assoc]
    cases part with
    | escape c => exact ih
    | plain c h =>
      simp only [stringSpecial, List.mem_cons, List.not_mem_nil, or_false, not_or] at h
      rw [Atom.print, List.singleton_append, staysInString, feed_quoted h.1 h.2, ih]
      rfl

/-- What stays in a string up to its end is atoms and a quote. After a backslash a character comes
first, whichever it is. -/
theorem exists_atoms_of_staysInString (cs : List Char) :
    (quoted.staysInString cs = true →
      ∃ parts : List (Atom stringSpecial), cs = parts.flatMap Atom.print ++ ['"']) ∧
    (quotedEscape.staysInString cs = true →
      ∃ c, ∃ parts : List (Atom stringSpecial), cs = c :: (parts.flatMap Atom.print ++ ['"'])) := by
  induction cs with
  | nil => exact ⟨fun h => absurd h (by decide), fun h => absurd h (by decide)⟩
  | cons c cs ih =>
    obtain ⟨ihquoted, ihescape⟩ := ih
    refine ⟨fun h => ?_, fun h => ?_⟩
    · rw [staysInString, Bool.and_eq_true] at h
      by_cases hslash : c = '\\'
      · subst hslash
        obtain ⟨e, parts, rfl⟩ := ihescape h.2
        exact ⟨.escape e :: parts, rfl⟩
      by_cases hquote : c = '"'
      · subst hquote
        -- The string is over, and so must be the text.
        obtain rfl : cs = [] := List.isEmpty_iff.mp h.1
        exact ⟨[], rfl⟩
      · rw [feed_quoted hslash hquote] at h
        obtain ⟨parts, rfl⟩ := ihquoted h.2
        exact ⟨.plain c (by simp [stringSpecial, hslash, hquote]) :: parts, rfl⟩
    · rw [staysInString, Bool.and_eq_true] at h
      obtain ⟨parts, rfl⟩ := ihquoted h.2
      exact ⟨c, parts, rfl⟩

theorem isStringLiteral_printString (parts : List (Atom stringSpecial)) :
    isStringLiteral (printString parts) = true := by
  have hstays : start.staysInString (printString parts) =
      quoted.staysInString (parts.flatMap Atom.print ++ ['"']) := rfl
  have hend : quoted.staysInString ['"'] = true := rfl
  have hlast : (printString parts).getLast? = some '"' := by
    rw [printString, ← List.cons_append, List.getLast?_concat]
  rw [isStringLiteral, hstays, staysInString_atoms, hend, hlast]
  simp [printString]

/-- **One complete string is a quote, atoms and a quote.** -/
theorem isStringLiteral_iff {cs : List Char} :
    isStringLiteral cs = true ↔ ∃ parts, cs = printString parts := by
  constructor
  · intro h
    simp only [isStringLiteral, Bool.and_eq_true, beq_iff_eq] at h
    obtain ⟨⟨⟨-, hhead⟩, -⟩, hstays⟩ := h
    cases cs with
    | nil => cases hhead
    | cons c cs =>
      cases hhead
      rw [staysInString, Bool.and_eq_true] at hstays
      obtain ⟨parts, rfl⟩ := (exists_atoms_of_staysInString cs).1 hstays.2
      exact ⟨parts, rfl⟩
  · rintro ⟨parts, rfl⟩
    exact isStringLiteral_printString parts

theorem wellNested_printString (parts : List (Atom stringSpecial)) :
    WellNested (printString parts) :=
  Reads.staysNested (passes_string rfl rfl (Int.le_refl 0) parts) rfl

theorem findDelimiter?_printString (parts : List (Atom stringSpecial)) (delimiters : List Char) :
    findDelimiter? (printString parts) delimiters = none :=
  Reads.findFrom_eq_none (passes_string rfl rfl (Int.le_refl 0) parts) (by simp) delimiters

/-- The character that an atom of a string stands for. -/
def Atom.char : Atom stringSpecial → Char
  | escape c => if c = 'n' then '\n' else if c = 't' then '\t' else c
  | plain c _ => c

/-- Characters that need no escape are atoms that stand for themselves. -/
theorem exists_plain_atoms {cs : List Char} (h : ∀ c ∈ cs, c ∉ stringSpecial) :
    ∃ parts : List (Atom stringSpecial),
      parts.flatMap Atom.print = cs ∧ parts.map Atom.char = cs := by
  induction cs with
  | nil => exact ⟨[], rfl, rfl⟩
  | cons c cs ih =>
    rw [List.forall_mem_cons] at h
    obtain ⟨parts, hprint, hchar⟩ := ih h.2
    refine ⟨.plain c h.1 :: parts, ?_, ?_⟩
    · rw [List.flatMap_cons, hprint, Atom.print, List.singleton_append]
    · rw [List.map_cons, hchar, Atom.char]

end Nesting

namespace Element

/-! ## Decoding -/

/-- `unescape`, going on with `ending` where the text is a single backslash. -/
def unescapeWith (ending : List Char) : List Char → List Char
  | [] => []
  | ['\\'] => ending
  | '\\' :: 'n' :: cs => '\n' :: unescapeWith ending cs
  | '\\' :: 't' :: cs => '\t' :: unescapeWith ending cs
  | '\\' :: c :: cs => c :: unescapeWith ending cs
  | c :: cs => c :: unescapeWith ending cs

theorem unescape_eq_unescapeWith (cs : List Char) : unescape cs = unescapeWith ['\\'] cs := by
  fun_induction unescape cs with
  | case1 | case2 => rfl
  | case3 cs ih | case4 cs ih => rw [unescapeWith, ih]
  | case5 c cs hn ht ih => rw [unescapeWith, ih] <;> assumption
  | case6 c cs h2 h3 h4 h5 ih => rw [unescapeWith, ih] <;> assumption

theorem unescapeWith_atom (ending : List Char) (part : Atom stringSpecial) (rest : List Char) :
    unescapeWith ending (part.print ++ rest) = part.char :: unescapeWith ending rest := by
  cases part with
  | escape c =>
    simp only [Atom.print, Atom.char, List.cons_append, List.nil_append]
    split_ifs with hn ht
    · subst hn
      rw [unescapeWith]
    · subst ht
      rw [unescapeWith]
    · rw [unescapeWith] <;> assumption
  | plain c h =>
    simp only [stringSpecial, List.mem_cons, List.not_mem_nil, or_false, not_or] at h
    rw [Atom.print, List.singleton_append, unescapeWith, Atom.char]
    all_goals simp [h.1]

/-- Atoms are decoded one by one, whatever a single backslash at the end would give. -/
theorem unescapeWith_atoms (ending : List Char) (parts : List (Atom stringSpecial)) :
    unescapeWith ending (parts.flatMap Atom.print) = parts.map Atom.char := by
  induction parts with
  | nil => rfl
  | cons part parts ih => rw [List.flatMap_cons, unescapeWith_atom, ih, List.map_cons]

theorem inner_printString (parts : List (Atom stringSpecial)) :
    (printString parts).tail.dropLast = parts.flatMap Atom.print := by
  rw [printString, List.tail_cons, List.dropLast_concat]

/-- A character as it is written between apostrophes. -/
def protectChar (c : Char) : List Char := if c = '\'' then "&#39;".toList else [c]

theorem literalText_printString (parts : List (Atom stringSpecial)) :
    literalText (printString parts) = (parts.map Atom.char).flatMap protectChar := by
  rw [literalText, inner_printString, unescape_eq_unescapeWith, unescapeWith_atoms]
  congr 1
  funext c
  simp [protectChar]

/-- **String values are recognised and decoded exactly.** A text is a string when it is a quote,
atoms and a quote. Its value is what the atoms stand for in order, with every apostrophe replaced,
and it does not depend on what the decoder makes of a backslash with nothing behind it. -/
theorem literalText_exact :
    (∀ text, isStringLiteral text = true ↔ ∃ parts, text = printString parts) ∧
      (∀ text, unescape text = unescapeWith ['\\'] text) ∧
      ∀ parts : List (Atom stringSpecial),
        literalText (printString parts) = (parts.map Atom.char).flatMap protectChar ∧
        '\'' ∉ literalText (printString parts) ∧
        ∀ ending, unescapeWith ending (printString parts).tail.dropLast = parts.map Atom.char := by
  refine ⟨fun text => isStringLiteral_iff, unescape_eq_unescapeWith, fun parts => ?_⟩
  refine ⟨literalText_printString parts, apostrophe_not_mem_literalText _, fun ending => ?_⟩
  rw [inner_printString, unescapeWith_atoms]

end Element

end Stencil
