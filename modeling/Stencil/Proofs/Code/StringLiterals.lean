/-
String literals stand for the texts that they are made of. A literal is read by the rules of its
language: a backslash and a letter name a character, `\u` and digits give the number of one, and all
else but a quote stands for itself. Each character of a text is written so that reading it takes up
just what was written for it, whatever comes after (`unquoteRest_quoteChar`), so reading a literal
gives back the text.

The languages differ in the digits behind `\u`. What a language has to ensure for them is said once
(`Numbers`), and all else follows from it (`faithful_quote`).
-/
import Stencil.Proofs.Dialect.Statements
import Stencil.Proofs.Element.Literals

namespace Stencil

open Nesting (Atom stringSpecial exists_plain_atoms)

namespace Code

/-! ## Reading literals -/

/-- What is particular to the string literals of a language. -/
structure LiteralRules where
  /-- The character cannot stand for itself. -/
  refuses : Char → Bool
  /-- The digits that name a character behind `\u`, and how many characters they take up with what
  encloses them. -/
  digits? : List Char → Option (List Char × Nat)

/-- The character that a backslash and this one stand for. -/
def escape? : Char → Option Char
  | '"' => some '"'
  | '\\' => some '\\'
  | 'n' => some '\n'
  | 'r' => some '\r'
  | 't' => some '\t'
  | _ => none

/-- The value of a hexadecimal digit, whose letters may be small or capital. -/
def hexDigit? (c : Char) : Option Nat := (List.range 16).find? fun d => d.digitChar == c.toLower

/-- The number that hexadecimal digits are read as. -/
def number? (digits : List Char) : Option Nat :=
  digits.foldlM (fun n c => (hexDigit? c).map (16 * n + ·)) 0

/-- The character whose number the digits are. -/
def charOf? (digits : List Char) : Option Char :=
  match number? digits with
  | none => none
  | some n => if n.isValidChar then some (Char.ofNat n) else none

/-- The text of a literal, read from behind its opening quote. -/
def unquoteRest (rules : LiteralRules) : List Char → Option (List Char)
  | [] => none
  | '"' :: cs => if cs.isEmpty then some [] else none
  | '\\' :: 'u' :: cs =>
    match rules.digits? cs with
    | none => none
    | some (digits, length) =>
      match charOf? digits with
      | none => none
      | some c => (unquoteRest rules (cs.drop length)).map (c :: ·)
  | '\\' :: e :: cs =>
    match escape? e with
    | none => none
    | some c => (unquoteRest rules cs).map (c :: ·)
  | c :: cs =>
    if c == '\\' || rules.refuses c then none else (unquoteRest rules cs).map (c :: ·)
termination_by cs => cs.length

/-- The text that a literal stands for, if it is one. -/
def unquote (rules : LiteralRules) : List Char → Option (List Char)
  | '"' :: cs => unquoteRest rules cs
  | _ => none

/-- A way of writing texts as literals of a language. -/
structure Faithful (rules : LiteralRules) (literal : String → String) : Prop where
  /-- The literal stands for the text. -/
  denotes : ∀ text, unquote rules (literal text).toList = some text.toList
  /-- It holds no control character, so it does not break a line. -/
  no_control : ∀ text, ∀ c ∈ (literal text).toList, isControl c = false
  /-- A reader of templates takes it for one string. -/
  complete : ∀ text, Nesting.isStringLiteral (literal text).toList = true
  /-- Different texts have different literals. -/
  injective : Function.Injective literal

/-! ## Digits -/

theorem hexDigit?_digitChar {d : Nat} (h : d < 16) : hexDigit? d.digitChar = some d := by
  revert d
  decide

theorem number?_concat {digits : List Char} {n d : Nat} (hn : number? digits = some n)
    (hd : d < 16) : number? (digits ++ [d.digitChar]) = some (16 * n + d) := by
  unfold number? at hn ⊢
  rw [List.foldlM_append, hn]
  simp [hexDigit?_digitChar hd]

/-- A number is read back from its digits. -/
theorem number?_hex (n : Nat) : number? (hex n) = some n := by
  induction n using Nat.strongRecOn with
  | ind n ih =>
    unfold hex at ih ⊢
    rw [Nat.toDigits_eq_if (by decide)]
    split
    · next h =>
      have hzero : number? [] = some 0 := rfl
      simpa using number?_concat hzero h
    · next h =>
      have hquotient := ih (n / 16) (by omega)
      rw [number?_concat hquotient (Nat.mod_lt n (by decide)), Nat.div_add_mod]

theorem number?_paddedHex (width n : Nat) : number? (paddedHex width n) = some n := by
  have hzeros : ∀ k, number? (List.replicate k '0') = some 0 := by
    intro k
    induction k with
    | zero => rfl
    | succ k ih =>
      rw [List.replicate_succ']
      exact number?_concat ih (by decide : 0 < 16)
  have hdigits := number?_hex n
  unfold number? at hdigits hzeros ⊢
  rw [paddedHex, List.foldlM_append, hzeros]
  exact hdigits

theorem charOf?_of_number? {digits : List Char} {c : Char} (h : number? digits = some c.toNat) :
    charOf? digits = some c := by
  have hvalid : c.toNat.isValidChar := c.valid
  rw [charOf?, h]
  simp [hvalid]

/-- A digit of a number. -/
theorem exists_digit_of_mem_hex {n : Nat} {c : Char} (h : c ∈ hex n) :
    ∃ d < 16, c = d.digitChar := by
  induction n using Nat.strongRecOn with
  | ind n ih =>
    unfold hex at ih h
    rw [Nat.toDigits_eq_if (by decide)] at h
    split at h
    · next hn => exact ⟨n, hn, List.mem_singleton.mp h⟩
    · rcases List.mem_append.mp h with h | h
      · exact ih (n / 16) (by omega) h
      · exact ⟨n % 16, Nat.mod_lt n (by decide), List.mem_singleton.mp h⟩

/-- A character that a literal holds as it is. -/
structure IsPlain (c : Char) : Prop where
  no_control : isControl c = false
  ne_quote : c ≠ '"'
  ne_backslash : c ≠ '\\'

theorem isPlain_digitChar {d : Nat} (h : d < 16) : IsPlain d.digitChar := by
  have hall : ∀ d < 16, isControl d.digitChar = false ∧ d.digitChar ≠ '"' ∧
      d.digitChar ≠ '\\' := by
    decide
  obtain ⟨hcontrol, hquote, hbackslash⟩ := hall d h
  exact ⟨hcontrol, hquote, hbackslash⟩

theorem isPlain_of_mem_hex {n : Nat} {c : Char} (h : c ∈ hex n) : IsPlain c := by
  obtain ⟨d, hd, rfl⟩ := exists_digit_of_mem_hex h
  exact isPlain_digitChar hd

/-- The number of a control character has at most two digits. -/
theorem length_hex_le {c : Char} (h : isControl c = true) : (hex c.toNat).length ≤ 2 := by
  simp only [isControl, Bool.or_eq_true, Bool.and_eq_true, decide_eq_true_eq] at h
  refine (Nat.length_toDigits_le_iff (by decide) (by decide)).mpr ?_
  omega

/-! ## Writing literals -/

/-- Control characters are written by their numbers, in a form that the rules of a language read,
and only they cannot stand for themselves in it. -/
structure Numbers (rules : LiteralRules) (numbered : Char → List Char) : Prop where
  refuses : ∀ c, rules.refuses c = true → isControl c = true
  written : ∀ c, isControl c = true → ∃ tail digits, numbered c = '\\' :: 'u' :: tail ∧
    (∀ d ∈ tail, IsPlain d) ∧ charOf? digits = some c ∧
    ∀ rest, rules.digits? (tail ++ rest) = some (digits, tail.length)

/-- A character is written as a named escape, by its number, or as it is. -/
theorem quoteChar_cases (numbered : Char → List Char) (c : Char) :
    (∃ e, escape? e = some c ∧ isControl e = false ∧ e ≠ 'u' ∧
        quoteChar numbered c = ['\\', e]) ∨
      (isControl c = true ∧ quoteChar numbered c = numbered c) ∨
      (IsPlain c ∧ quoteChar numbered c = [c]) := by
  unfold quoteChar
  split
  · next h => exact .inl ⟨'"', by simp [escape?, eq_of_beq h], by decide, by decide, rfl⟩
  split
  · next h => exact .inl ⟨'\\', by simp [escape?, eq_of_beq h], by decide, by decide, rfl⟩
  split
  · next h => exact .inl ⟨'n', by simp [escape?, eq_of_beq h], by decide, by decide, rfl⟩
  split
  · next h => exact .inl ⟨'r', by simp [escape?, eq_of_beq h], by decide, by decide, rfl⟩
  split
  · next h => exact .inl ⟨'t', by simp [escape?, eq_of_beq h], by decide, by decide, rfl⟩
  split
  · next h => exact .inr (.inl ⟨h, rfl⟩)
  · next hquote hbackslash _ _ _ hcontrol =>
    exact .inr (.inr ⟨⟨by simpa using hcontrol, by simpa using hquote, by simpa using hbackslash⟩,
      rfl⟩)

variable {rules : LiteralRules} {numbered : Char → List Char}

theorem unquoteRest_plain {c : Char} (hc : IsPlain c) (hrefuses : rules.refuses c = false)
    (rest : List Char) :
    unquoteRest rules (c :: rest) = (unquoteRest rules rest).map (c :: ·) := by
  have hbackslash := hc.ne_backslash
  rw [unquoteRest]
  · simp [hbackslash, hrefuses]
  · exact hc.ne_quote
  · rintro cs rfl
    exact absurd rfl hbackslash
  · rintro e cs rfl
    exact absurd rfl hbackslash

theorem unquoteRest_escape {e c : Char} (h : escape? e = some c) (hu : e ≠ 'u')
    (rest : List Char) :
    unquoteRest rules ('\\' :: e :: rest) = (unquoteRest rules rest).map (c :: ·) := by
  rw [unquoteRest]
  · simp [h]
  · exact hu

/-- Reading what is written for a character gives this character, whatever comes after. -/
theorem unquoteRest_quoteChar (h : Numbers rules numbered) (c : Char) (rest : List Char) :
    unquoteRest rules (quoteChar numbered c ++ rest) =
      (unquoteRest rules rest).map (c :: ·) := by
  rcases quoteChar_cases numbered c with ⟨e, hescape, -, hu, hc⟩ | ⟨hcontrol, hc⟩ | ⟨hplain, hc⟩
  · rw [hc]
    exact unquoteRest_escape hescape hu rest
  · obtain ⟨tail, digits, hnumbered, -, hchar, hdigits⟩ := h.written c hcontrol
    rw [hc, hnumbered, List.cons_append, List.cons_append, unquoteRest]
    simp [hdigits, hchar]
  · have hrefuses : rules.refuses c = false := by
      rw [← Bool.not_eq_true]
      intro hrefuses
      simpa [hplain.no_control] using h.refuses c hrefuses
    rw [hc]
    exact unquoteRest_plain hplain hrefuses rest

theorem not_control_quoteChar (h : Numbers rules numbered) (c : Char) :
    ∀ d ∈ quoteChar numbered c, isControl d = false := by
  rcases quoteChar_cases numbered c with ⟨e, -, he, -, hc⟩ | ⟨hcontrol, hc⟩ | ⟨hplain, hc⟩
  · rw [hc, List.forall_mem_cons, List.forall_mem_singleton]
    exact ⟨by decide, he⟩
  · obtain ⟨tail, digits, hnumbered, htail, -, -⟩ := h.written c hcontrol
    rw [hc, hnumbered, List.forall_mem_cons, List.forall_mem_cons]
    exact ⟨by decide, by decide, fun d hd => (htail d hd).no_control⟩
  · rw [hc, List.forall_mem_singleton]
    exact hplain.no_control

/-- What is written for a character is atoms of a string, so it does not end the string. -/
theorem exists_atoms_quoteChar (h : Numbers rules numbered) (c : Char) :
    ∃ parts : List (Atom stringSpecial), parts.flatMap Atom.print = quoteChar numbered c := by
  have hplain : ∀ d, IsPlain d → d ∉ stringSpecial := by
    intro d hd
    simp [stringSpecial, hd.ne_backslash, hd.ne_quote]
  rcases quoteChar_cases numbered c with ⟨e, -, -, -, hc⟩ | ⟨hcontrol, hc⟩ | ⟨hplainc, hc⟩
  · exact ⟨[.escape e], hc.symm⟩
  · obtain ⟨tail, digits, hnumbered, htail, -, -⟩ := h.written c hcontrol
    obtain ⟨parts, hparts, -⟩ := exists_plain_atoms fun d hd => hplain d (htail d hd)
    refine ⟨.escape 'u' :: parts, ?_⟩
    rw [List.flatMap_cons, hparts, hc, hnumbered]
    rfl
  · exact ⟨[.plain c (hplain c hplainc)], hc.symm⟩

theorem toList_quote (numbered : Char → List Char) (text : String) :
    (Code.quote numbered text).toList =
      '"' :: (text.toList.flatMap (quoteChar numbered) ++ ['"']) := by
  rw [Code.quote, String.toList_ofList]

theorem unquote_quote (h : Numbers rules numbered) (text : String) :
    unquote rules (Code.quote numbered text).toList = some text.toList := by
  rw [toList_quote, unquote]
  induction text.toList with
  | nil => simp [unquoteRest]
  | cons c cs ih =>
    rw [List.flatMap_cons, List.append_assoc, unquoteRest_quoteChar h, ih, Option.map_some]

theorem isStringLiteral_codeQuote (h : Numbers rules numbered) (text : String) :
    Nesting.isStringLiteral (Code.quote numbered text).toList = true := by
  have hatoms : ∃ parts : List (Atom stringSpecial),
      parts.flatMap Atom.print = text.toList.flatMap (quoteChar numbered) := by
    induction text.toList with
    | nil => exact ⟨[], rfl⟩
    | cons c cs ih =>
      obtain ⟨front, hfront⟩ := exists_atoms_quoteChar h c
      obtain ⟨parts, hparts⟩ := ih
      exact ⟨front ++ parts, by rw [List.flatMap_append, List.flatMap_cons, hfront, hparts]⟩
  obtain ⟨parts, hparts⟩ := hatoms
  exact Nesting.isStringLiteral_iff.mpr ⟨parts, by rw [toList_quote, ← hparts, Nesting.printString]⟩

/-- **Texts are written faithfully** when control characters are written by their numbers. -/
theorem faithful_quote (h : Numbers rules numbered) : Faithful rules (Code.quote numbered) where
  denotes := unquote_quote h
  no_control text c hc := by
    rw [toList_quote, List.mem_cons, List.mem_append, List.mem_singleton] at hc
    rcases hc with rfl | hc | rfl
    · decide
    · obtain ⟨d, -, hd⟩ := List.mem_flatMap.mp hc
      exact not_control_quoteChar h d c hd
    · decide
  complete := isStringLiteral_codeQuote h
  injective s t hst := by
    have hs := unquote_quote h s
    rw [hst, unquote_quote h t, Option.some.injEq] at hs
    exact (String.toList_inj.mp hs).symm

end Code

open Code

namespace Dialect

/-! ## The languages -/

namespace Rust

/-- String literals of Rust. Between braces stand one to six digits, and a carriage return does not
stand for itself. -/
def literalRules : LiteralRules where
  refuses c := c == '\r'
  digits?
    | '{' :: cs =>
      let digits := cs.takeWhile fun c => (hexDigit? c).isSome
      if 1 ≤ digits.length ∧ digits.length ≤ 6 ∧ (cs.drop digits.length).head? = some '}' then
        some (digits, digits.length + 2)
      else none
    | _ => none

/-- The digits of a number end at the brace behind them. -/
theorem takeWhile_hex (n : Nat) (rest : List Char) :
    (hex n ++ '}' :: rest).takeWhile (fun c => (hexDigit? c).isSome) = hex n := by
  have hdigit : ∀ c ∈ hex n, (hexDigit? c).isSome = true := by
    intro c hc
    obtain ⟨d, hd, rfl⟩ := exists_digit_of_mem_hex hc
    rw [hexDigit?_digitChar hd]
    rfl
  rw [List.takeWhile_append_of_pos hdigit, List.takeWhile_cons_of_neg (by decide), List.append_nil]

theorem numbers_numbered : Numbers literalRules numbered where
  refuses c hc := by
    obtain rfl : c = '\r' := eq_of_beq hc
    decide
  written c hc := by
    refine ⟨'{' :: (hex c.toNat ++ ['}']), hex c.toNat, rfl, ?_,
      charOf?_of_number? (number?_hex _), fun rest => ?_⟩
    · rw [List.forall_mem_cons, List.forall_mem_append, List.forall_mem_singleton]
      exact ⟨⟨by decide, by decide, by decide⟩, fun d hd => isPlain_of_mem_hex hd,
        ⟨by decide, by decide, by decide⟩⟩
    · have hpos : 1 ≤ (hex c.toNat).length := Nat.length_toDigits_pos
      have hle : (hex c.toNat).length ≤ 6 := Nat.le_trans (length_hex_le hc) (by decide)
      simp [literalRules, List.append_assoc, takeWhile_hex, hpos, hle]

end Rust

namespace Go

/-- Interpreted string literals of Go. There are exactly four digits, and a line feed does not stand
for itself. -/
def literalRules : LiteralRules where
  refuses c := c == '\n'
  digits? cs := if (cs.take 4).length = 4 then some (cs.take 4, 4) else none

theorem length_paddedHex {c : Char} (h : isControl c = true) :
    (paddedHex 4 c.toNat).length = 4 := by
  have hle := length_hex_le h
  rw [paddedHex, List.length_append, List.length_replicate]
  omega

theorem numbers_numbered : Numbers literalRules numbered where
  refuses c hc := by
    obtain rfl : c = '\n' := eq_of_beq hc
    decide
  written c hc := by
    have hlength := length_paddedHex hc
    refine ⟨paddedHex 4 c.toNat, paddedHex 4 c.toNat, rfl, ?_,
      charOf?_of_number? (number?_paddedHex 4 _), fun rest => ?_⟩
    · rw [paddedHex, List.forall_mem_append]
      refine ⟨fun d hd => ?_, fun d hd => isPlain_of_mem_hex hd⟩
      obtain rfl := List.eq_of_mem_replicate hd
      exact isPlain_digitChar (by decide : 0 < 16)
    · have htake : (paddedHex 4 c.toNat ++ rest).take 4 = paddedHex 4 c.toNat :=
        List.take_left' hlength
      simp [literalRules, htake, hlength]

end Go

/-- **String literals denote their texts**, in both languages: read by the rules of the language, a
literal gives back the text it was made of, it holds no control character, and a reader of templates
takes it for one complete string. -/
theorem stringLiteral_faithful (runtime : String) :
    Faithful Rust.literalRules (rust runtime).stringLiteral ∧
      Faithful Go.literalRules go.stringLiteral :=
  ⟨faithful_quote Rust.numbers_numbered, faithful_quote Go.numbers_numbered⟩

end Dialect

end Stencil
