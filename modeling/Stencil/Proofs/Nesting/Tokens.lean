/-
Texts of the host languages as sequences of tokens: plain characters, strings, character literals of
one character, and groups. Such tokens are items of the grammar of well-nested texts, whatever
their literals hold, with one exception: a quote in a character literal is taken for the start of a
string, and the apostrophe after it for a part of that string.

`tokens_delimited`: without such a literal, the group around the tokens is closed by the parenthesis
after them, and they are split at the commas that are tokens themselves. With an odd number of them
the tokens end in a string and are not split at all.
-/
import Mathlib.Data.Nat.Bits
import Stencil.Proofs.Nesting.Grammar

namespace Stencil.Nesting

variable {s : Nesting} {as bs cs : List Char}

/-- What cannot stand for itself in a character literal of one character. -/
def oneCharSpecial : List Char := ['\'', '\\']

inductive Token where
  | plain (c : Char) (h : c ∉ specialChars)
  | string (parts : List (Atom stringSpecial))
  | char (content : Atom oneCharSpecial)
  | group (opening : Char) (tokens : List Token) (closing : Char)
      (hopening : isOpening opening = true) (hclosing : isClosing closing = true)

namespace Token

mutual

def print : Token → List Char
  | plain c _ => [c]
  | string parts => printString parts
  | char content => '\'' :: (content.print ++ ['\''])
  | group opening tokens closing _ _ => opening :: (printAll tokens ++ [closing])

def printAll : List Token → List Char
  | [] => []
  | t :: ts => t.print ++ printAll ts

end

/-- A comma that is a token itself. -/
def isComma : Token → Bool
  | plain c _ => c == ','
  | _ => false

mutual

/-- How many character literals hold a quote that is not escaped. -/
def quoteLiterals : Token → Nat
  | plain _ _ | string _ | char (.escape _) => 0
  | char (.plain c _) => if c = '"' then 1 else 0
  | group _ tokens _ _ _ => quoteLiteralsAll tokens

def quoteLiteralsAll : List Token → Nat
  | [] => 0
  | t :: ts => t.quoteLiterals + quoteLiteralsAll ts

end

/-! ## Tokens as items -/

mutual

/-- A token is an item, and only a plain one is a plain item. -/
theorem exists_item : ∀ t : Token, t.quoteLiterals = 0 →
    ∃ i : Item, i.print = t.print ∧ ∀ c hc, i = .plain c hc → t = .plain c hc
  | plain c hc, _ => ⟨.plain c hc, rfl, by rintro _ _ ⟨⟩; rfl⟩
  | string parts, _ => ⟨.string parts, rfl, nofun⟩
  | char (.escape c), _ => ⟨.char [.atom (.escape c)], rfl, nofun⟩
  | char (.plain c hc), h => by
    have hquote : c ≠ '"' := by simpa [quoteLiterals] using h
    have hc' : c ∉ charSpecial := by
      simp only [oneCharSpecial, List.mem_cons, List.not_mem_nil, or_false, not_or] at hc
      simp [charSpecial, hc, hquote]
    exact ⟨.char [.atom (.plain c hc')], rfl, nofun⟩
  | group opening ts closing hopening hclosing, h => by
    obtain ⟨items, hitems⟩ := exists_items ts h
    refine ⟨.group opening items closing hopening hclosing, ?_, nofun⟩
    rw [Item.print, print, hitems]

theorem exists_items : ∀ ts : List Token, quoteLiteralsAll ts = 0 →
    ∃ items, Item.printAll items = printAll ts
  | [], _ => ⟨[], rfl⟩
  | t :: ts, h => by
    rw [quoteLiteralsAll, Nat.add_eq_zero_iff] at h
    obtain ⟨i, hi, -⟩ := exists_item t h.1
    obtain ⟨items, hitems⟩ := exists_items ts h.2
    exact ⟨i :: items, by rw [Item.printAll, printAll, hi, hitems]⟩

end

theorem wellNested_printAll {ts : List Token} (h : quoteLiteralsAll ts = 0) :
    WellNested (printAll ts) :=
  wellNested_iff_exists_items.mpr (exists_items ts h)

/-- A token that is no comma is passed over when commas are looked for. -/
theorem pass_of_not_isComma {t : Token} (h : t.quoteLiterals = 0) (ht : t.isComma = false) :
    start.run t.print = start ∧ findDelimiter? t.print [','] = none := by
  obtain ⟨i, hi, hplain⟩ := exists_item t h
  have hfree : Item.FreeOf [','] [i] := by
    intro c hc hmem
    rw [hplain c hc (List.mem_singleton.mp hmem).symm] at ht
    simpa [isComma] using ht
  have hfind := findDelimiter?_of_freeOf hfree
  rw [Item.printAll, Item.printAll, List.append_nil, hi] at hfind
  exact ⟨hi ▸ i.reads_print.run_eq, hfind⟩

/-! ## Groups and commas -/

theorem closingParen?_printAll {ts : List Token} (h : quoteLiteralsAll ts = 0) (tail : List Char) :
    closingParen? ('(' :: (printAll ts ++ ')' :: tail)) =
      some (1 + Text.byteLength (printAll ts)) := by
  rw [closingParen?, closeGroup?_group (wellNested_printAll h)]
  rfl

theorem splitTopLevel?_printAll {ts : List Token} (h : quoteLiteralsAll ts = 0) :
    splitTopLevel? (printAll ts) ',' = some ((ts.splitOnP isComma).map printAll) := by
  induction ts with
  | nil => rfl
  | cons t ts ih =>
    rw [quoteLiteralsAll, Nat.add_eq_zero_iff] at h
    rw [printAll, List.splitOnP_cons_eq_if_modifyHead]
    cases ht : t.isComma with
    | true =>
      have hprint : t.print = [','] := by
        cases t with
        | plain c hc => rw [print, beq_iff_eq.mp ht]
        | string | char | group => cases ht
      rw [hprint, List.singleton_append, splitTopLevel?_cons (by decide), ih h.2]
      rfl
    | false =>
      obtain ⟨hrun, hfind⟩ := pass_of_not_isComma h.1 ht
      obtain ⟨p, ps, hps⟩ := List.exists_cons_of_ne_nil (List.splitOnP_ne_nil isComma ts)
      rw [splitTopLevel?_append hrun hfind, ih h.2, hps]
      rfl

end Token

/-! ## Quotes in character literals -/

/-- Read with no escape open, the text leaves none open, and it ends inside a string if it started
outside, and the other way round, exactly if `odd` holds. -/
def Flips (odd : Bool) (cs : List Char) : Prop :=
  ∀ s : Nesting, s.escaped = false →
    (s.run cs).escaped = false ∧ (s.run cs).inString = (s.inString ^^ odd)

theorem Flips.append {a b : Bool} (has : Flips a as) (hbs : Flips b bs) :
    Flips (a ^^ b) (as ++ bs) := by
  intro s hs
  obtain ⟨hescaped, hstring⟩ := has s hs
  obtain ⟨hescaped', hstring'⟩ := hbs _ hescaped
  rw [run, List.foldl_append, ← run, ← run]
  exact ⟨hescaped', by rw [hstring', hstring, Bool.xor_assoc]⟩

theorem flips_nil : Flips false [] := fun _ hs => ⟨hs, (Bool.xor_false _).symm⟩

theorem flips_escape (c : Char) : Flips false ['\\', c] := by
  rintro ⟨inString, inChar, depth, escaped⟩ rfl
  exact ⟨rfl, (Bool.xor_false _).symm⟩

theorem flips_char {c : Char} (hc : c ≠ '\\') : Flips (c == '"') [c] := by
  intro s hs
  change (s.step c).1.escaped = false ∧ (s.step c).1.inString = (s.inString ^^ (c == '"'))
  fun_cases step s c with
  | case1 hescaped => rw [hs] at hescaped; cases hescaped
  | case2 _ hslash => exact absurd (beq_iff_eq.mp hslash) hc
  | case3 _ _ hquote => exact ⟨hs, by rw [hquote, Bool.xor_true]⟩
  | case4 _ _ hquote | case5 _ _ hquote | case6 _ _ hquote | case7 _ _ hquote | case8 _ _ hquote
  | case9 _ _ hquote =>
    rw [Bool.not_eq_true] at hquote
    exact ⟨hs, by rw [hquote, Bool.xor_false]⟩

theorem flips_quote : Flips true ['"'] := flips_char (by decide)

theorem flips_other {c : Char} (hc : c ∉ stringSpecial) : Flips false [c] := by
  simp only [stringSpecial, List.mem_cons, List.not_mem_nil, or_false, not_or] at hc
  have := flips_char hc.1
  rwa [beq_eq_false_iff_ne.mpr hc.2] at this

/-- A text between two characters that are neither quotes nor backslashes. -/
theorem Flips.enclosed {odd : Bool} (h : Flips odd cs) {opening closing : Char}
    (hopening : opening ∉ stringSpecial) (hclosing : closing ∉ stringSpecial) :
    Flips odd (opening :: (cs ++ [closing])) := by
  have := (flips_other hopening).append (h.append (flips_other hclosing))
  rwa [Bool.xor_false, Bool.false_xor] at this

theorem flips_atoms (parts : List (Atom stringSpecial)) :
    Flips false (parts.flatMap Atom.print) := by
  induction parts with
  | nil => exact flips_nil
  | cons part parts ih =>
    rw [List.flatMap_cons]
    cases part with
    | escape c => exact (flips_escape c).append ih
    | plain c hc => exact (flips_other hc).append ih

theorem flips_string (parts : List (Atom stringSpecial)) : Flips false (printString parts) :=
  flips_quote.append ((flips_atoms parts).append flips_quote)

namespace Token

mutual

theorem flips_print : ∀ t : Token, Flips t.quoteLiterals.bodd t.print
  | plain c hc => by
    rw [quoteLiterals, print]
    refine flips_other fun hmem => hc ?_
    simp only [stringSpecial, List.mem_cons, List.not_mem_nil, or_false] at hmem
    rcases hmem with rfl | rfl <;> decide
  | string parts => by
    rw [quoteLiterals, print]
    exact flips_string parts
  | char (.escape c) => by
    rw [quoteLiterals, print]
    exact (flips_escape c).enclosed (by decide) (by decide)
  | char (.plain c hc) => by
    have hslash : c ≠ '\\' := fun heq => hc (by rw [heq]; decide)
    rw [quoteLiterals, print]
    split
    · next hquote =>
      subst hquote
      exact flips_quote.enclosed (by decide) (by decide)
    · next hquote =>
      have hother : c ∉ stringSpecial := by simp [stringSpecial, hslash, hquote]
      exact (flips_other hother).enclosed (by decide) (by decide)
  | group opening ts closing hopening hclosing => by
    rw [quoteLiterals, print]
    exact (flips_printAll ts).enclosed (not_mem_of_class (by decide) hopening)
      (not_mem_of_class (by decide) hclosing)

theorem flips_printAll : ∀ ts : List Token, Flips (quoteLiteralsAll ts).bodd (printAll ts)
  | [] => flips_nil
  | t :: ts => by
    rw [quoteLiteralsAll, Nat.bodd_add]
    exact (flips_print t).append (flips_printAll ts)

end

end Token

theorem splitTopLevel?_of_odd {ts : List Token} (h : Token.quoteLiteralsAll ts % 2 = 1) :
    splitTopLevel? (Token.printAll ts) ',' = none := by
  have hodd : (Token.quoteLiteralsAll ts).bodd = true := by
    rw [Nat.mod_two_of_bodd] at h
    revert h
    cases (Token.quoteLiteralsAll ts).bodd <;> decide
  have hstring := (Token.flips_printAll ts start rfl).2
  rw [hodd, Bool.xor_true] at hstring
  exact splitTopLevel?_eq_none (by rw [inLiteral, hstring]; rfl) ','

/-- **Tokens are delimited as they should be, unless a character literal holds a quote**: the group
around them is closed by the parenthesis after them, and they are split at the commas among them.
With an odd number of such literals they are never split. -/
theorem tokens_delimited (ts : List Token) :
    (Token.quoteLiteralsAll ts = 0 →
      (∀ tail, closingParen? ('(' :: (Token.printAll ts ++ ')' :: tail)) =
        some (1 + Text.byteLength (Token.printAll ts))) ∧
      splitTopLevel? (Token.printAll ts) ',' =
        some ((ts.splitOnP Token.isComma).map Token.printAll)) ∧
    (Token.quoteLiteralsAll ts % 2 = 1 → splitTopLevel? (Token.printAll ts) ',' = none) :=
  ⟨fun h => ⟨Token.closingParen?_printAll h, Token.splitTopLevel?_printAll h⟩,
    splitTopLevel?_of_odd⟩

/-- Tokens whose literals hold delimiters: `",",'(',[a,'\"']`. -/
def delimiterTokens : List Token :=
  [.string [.plain ',' (by decide)], .plain ',' (by decide), .char (.plain '(' (by decide)),
    .plain ',' (by decide),
    .group '[' [.plain 'a' (by decide), .plain ',' (by decide), .char (.escape '"')] ']' rfl rfl]

theorem tokens_delimited_literals : Token.quoteLiteralsAll delimiterTokens = 0 ∧
    closingParen? "(\",\",'(',[a,'\\\"']),)".toList = some 17 ∧
    splitTopLevel? "\",\",'(',[a,'\\\"']".toList ',' =
      some ["\",\"".toList, "'('".toList, "[a,'\\\"']".toList] := by
  obtain ⟨hgroup, hsplit⟩ := (tokens_delimited delimiterTokens).1 rfl
  exact ⟨rfl, hgroup [',', ')'], hsplit⟩

/-- A character literal that holds a quote leaves its group open. -/
theorem quote_literal_unclosed :
    closingParen? ('(' :: (Token.printAll [.char (.plain '"' (by decide))] ++ [')'])) = none ∧
      splitTopLevel? (Token.printAll
        [.char (.plain '"' (by decide)), .plain ',' (by decide), .plain 'b' (by decide)]) ',' =
        none := by
  decide

end Stencil.Nesting
