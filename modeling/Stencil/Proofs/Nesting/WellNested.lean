/-
Well-nested texts: texts that close only groups they have opened and end outside every literal,
escape and group. Put one after another they stay well-nested, a parenthesis around one is closed
by the parenthesis after it (`closeGroup?_group`), and texts without a top-level separator, joined
by it, are split into the same texts again (`splitTopLevel?_join`).

A part is a well-nested text without a top-level comma, and a piece is a part that is trimmed and not
empty. Lists of pieces are written with a comma and a space between them.
-/
import Mathlib.Tactic.MkIffOfInductiveProp
import Stencil.Nesting
import Stencil.Proofs.Text.Trimmed

namespace Stencil.Nesting

variable {s : Nesting} {as bs cs : List Char} {delimiters : List Char}

/-- Read from `s`, a text never closes more groups than are open and ends outside everything. -/
def staysNested (s : Nesting) : List Char → Bool
  | [] => s.isSettled
  | c :: cs => 0 ≤ (s.feed c).depth && (s.feed c).staysNested cs

/-- A text that never closes more groups than it has opened and ends outside everything. -/
def WellNested (cs : List Char) : Prop := start.staysNested cs = true

instance (cs : List Char) : Decidable (WellNested cs) := inferInstanceAs (Decidable (_ = true))

theorem run_nil (s : Nesting) : s.run [] = s := rfl

theorem run_cons (s : Nesting) (c : Char) (cs : List Char) : s.run (c :: cs) = (s.feed c).run cs :=
  rfl

theorem eq_start_of_isSettled (hdepth : 0 ≤ s.depth) (h : s.isSettled = true) : s = start := by
  obtain ⟨inString, inChar, depth, escaped⟩ := s
  simp only [isSettled, Bool.and_eq_true, Bool.not_eq_true', decide_eq_true_eq] at h hdepth
  obtain ⟨⟨⟨rfl, rfl⟩, rfl⟩, h⟩ := h
  have : depth = 0 := by omega
  rw [this]
  rfl

theorem staysNested_cons {c : Char} (h : s.staysNested (c :: cs) = true) :
    0 ≤ (s.feed c).depth ∧ (s.feed c).staysNested cs = true := by
  simpa [staysNested] using h

theorem run_of_staysNested (hdepth : 0 ≤ s.depth) (h : s.staysNested cs = true) :
    s.run cs = start := by
  induction cs generalizing s with
  | nil => exact eq_start_of_isSettled hdepth h
  | cons c cs ih =>
    obtain ⟨hfeed, hcs⟩ := staysNested_cons h
    exact ih hfeed hcs

theorem WellNested.run_start (h : WellNested cs) : start.run cs = start :=
  run_of_staysNested (Int.le_refl 0) h

theorem staysNested_append (h : s.staysNested as = true) (hbs : WellNested bs)
    (hdepth : 0 ≤ s.depth) : s.staysNested (as ++ bs) = true := by
  induction as generalizing s with
  | nil =>
    rw [eq_start_of_isSettled hdepth h]
    exact hbs
  | cons a as ih =>
    obtain ⟨hfeed, has⟩ := staysNested_cons h
    rw [List.cons_append, staysNested, ih has hfeed, Bool.and_true]
    exact decide_eq_true hfeed

theorem WellNested.append (has : WellNested as) (hbs : WellNested bs) : WellNested (as ++ bs) :=
  staysNested_append has hbs (Int.le_refl 0)

/-- A character that is neither a quote nor a backslash nor a bracket. -/
def isPlain (c : Char) : Bool := start.feed c == start && !start.covers c

theorem feed_of_isPlain {c : Char} (h : isPlain c = true) : start.feed c = start := by
  simp only [isPlain, Bool.and_eq_true, beq_iff_eq] at h
  exact h.1

theorem covers_of_isPlain {c : Char} (h : isPlain c = true) : start.covers c = false := by
  simp only [isPlain, Bool.and_eq_true, Bool.not_eq_true'] at h
  exact h.2

/-- Quotes, the backslash and brackets. -/
def specialChars : List Char := ['\\', '"', '\'', '(', '[', '{', ')', ']', '}']

theorem isPlain_of_not_mem {c : Char} (h : c ∉ specialChars) : isPlain c = true := by
  simp only [specialChars, List.mem_cons, List.not_mem_nil, or_false, not_or] at h
  simp [isPlain, feed, covers, step, start, isOpening, isClosing, h]

/-- A class that none of the special characters belongs to. -/
theorem not_mem_of_class {special : List Char} {p : Char → Bool}
    (hp : special.all (fun c => !p c) = true) {c : Char} (hc : p c = true) : c ∉ special := by
  intro hmem
  have := List.all_eq_true.mp hp c hmem
  rw [hc] at this
  cases this

/-- A class of characters that no quote, backslash or bracket belongs to. -/
theorem isPlain_of_class {p : Char → Bool} (hp : specialChars.all (fun c => !p c) = true) {c : Char}
    (hc : p c = true) : isPlain c = true :=
  isPlain_of_not_mem (not_mem_of_class hp hc)

theorem isPlain_of_isBlank {c : Char} (h : Text.isBlank c = true) : isPlain c = true :=
  isPlain_of_class (by decide) h

theorem WellNested.cons {c : Char} (hc : isPlain c = true) (h : WellNested cs) :
    WellNested (c :: cs) := by
  rw [WellNested, staysNested, feed_of_isPlain hc]
  exact h

theorem wellNested_of_isPlain (h : ∀ c ∈ cs, isPlain c = true) : WellNested cs := by
  induction cs with
  | nil => decide
  | cons c cs ih =>
    rw [List.forall_mem_cons] at h
    exact (ih h.2).cons h.1

/-! ## Literals -/

/-- A string, a character literal or an escape is open. -/
def inLiteral (s : Nesting) : Bool := s.inString || s.inChar || s.escaped

/-- In a literal no group is opened or closed, and every character is inside it. -/
theorem feed_of_inLiteral (h : s.inLiteral = true) (c : Char) :
    (s.feed c).depth = s.depth ∧ s.covers c = true := by
  change (s.step c).1.depth = s.depth ∧ (s.step c).2 = true
  fun_cases step s c with
  | case1 | case2 | case3 | case4 | case5 | case6 => exact ⟨rfl, rfl⟩
  | case7 hescaped _ _ hstring _ hchar | case8 hescaped _ _ hstring _ hchar
  | case9 hescaped _ _ hstring _ hchar => simp [inLiteral, hescaped, hstring, hchar] at h

/-- Outside every literal the depth is all there is to know. -/
theorem eq_of_not_inLiteral (h : s.inLiteral = false) : s = ⟨false, false, s.depth, false⟩ := by
  obtain ⟨inString, inChar, depth, escaped⟩ := s
  simp only [inLiteral, Bool.or_eq_false_iff] at h
  obtain ⟨⟨rfl, rfl⟩, rfl⟩ := h
  rfl

/-! ## Groups -/

/-- The state inside one more group. -/
def deepen (s : Nesting) : Nesting := { s with depth := s.depth + 1 }

theorem feed_deepen (s : Nesting) (c : Char) : s.deepen.feed c = (s.feed c).deepen := by
  change (s.deepen.step c).1 = (s.step c).1.deepen
  -- Only a closing bracket needs a computation: one less than one more is one more than one less.
  fun_cases step s c <;> simp [step, deepen, *]

theorem run_deepen (s : Nesting) (cs : List Char) : s.deepen.run cs = (s.run cs).deepen := by
  induction cs generalizing s with
  | nil => rfl
  | cons c cs ih => rw [run_cons, feed_deepen, ih, run_cons]

/-- The parenthesis after a well-nested text is the first that closes the group around it. -/
theorem closeFrom_append (hdepth : 0 ≤ s.depth) (h : s.staysNested cs = true) (rest : List Char) :
    s.deepen.closeFrom (cs ++ ')' :: rest) = some ⟨cs, ')', rest⟩ := by
  induction cs generalizing s with
  | nil =>
    rw [eq_start_of_isSettled hdepth h]
    rfl
  | cons c cs ih =>
    obtain ⟨hfeed, hcs⟩ := staysNested_cons h
    have hopen : ((s.feed c).deepen.depth == 0) = false := by
      simp only [deepen, beq_eq_false_iff_ne]
      omega
    rw [List.cons_append, closeFrom, feed_deepen, hopen, Bool.and_false, Bool.false_and,
      if_neg (by decide), ih hfeed hcs]
    rfl

theorem closeGroup?_group (h : WellNested cs) (rest : List Char) :
    closeGroup? ('(' :: (cs ++ ')' :: rest)) = some ⟨cs, ')', rest⟩ :=
  closeFrom_append (Int.le_refl 0) h rest

/-! ## Delimiters -/

/-- A text without a top-level delimiter is passed over whole. -/
theorem findFrom_append (h : s.findFrom delimiters as = none) (bs : List Char) :
    s.findFrom delimiters (as ++ bs) =
      ((s.run as).findFrom delimiters bs).map fun k => { k with before := as ++ k.before } := by
  induction as generalizing s with
  | nil => simp [run_nil]
  | cons a as ih =>
    simp only [findFrom] at h
    split at h
    · cases h
    · rename_i hnot
      rw [List.cons_append, findFrom, if_neg hnot, ih (Option.map_eq_none_iff.mp h), Option.map_map,
        run_cons]
      rfl

/-- The first top-level delimiter is the one after a text that has none. -/
theorem findFrom_delimiter {c : Char} (hrun : s.run as = start) (hc : isPlain c = true)
    (hmem : delimiters.contains c = true) (h : s.findFrom delimiters as = none) (bs : List Char) :
    s.findFrom delimiters (as ++ c :: bs) = some ⟨as, c, bs⟩ := by
  rw [findFrom_append h, hrun, findFrom, covers_of_isPlain hc, hmem]
  simp

theorem findDelimiter?_cons {c : Char} (hc : isPlain c = true)
    (hmem : delimiters.contains c = false) (h : findDelimiter? cs delimiters = none) :
    findDelimiter? (c :: cs) delimiters = none := by
  rw [findDelimiter?] at h ⊢
  rw [findFrom, hmem, Bool.and_false, if_neg (by decide), feed_of_isPlain hc, h]
  rfl

/-! ## Splitting -/

/-- A text is split if it ends outside everything, and only then. -/
theorem isSome_splitFrom (s : Nesting) (separator : Char) (cs : List Char) :
    (s.splitFrom separator cs).isSome = (s.run cs).isSettled := by
  induction cs generalizing s with
  | nil =>
    rw [splitFrom, run_nil]
    cases s.isSettled <;> rfl
  | cons c cs ih => rw [splitFrom, Option.isSome_map, ih, run_cons]

/-- A text that ends in a literal is not split. -/
theorem splitTopLevel?_eq_none (h : (start.run cs).inLiteral = true) (separator : Char) :
    splitTopLevel? cs separator = none := by
  rw [← Option.not_isSome_iff_eq_none, splitTopLevel?, isSome_splitFrom, isSettled]
  simp only [inLiteral, Bool.or_eq_true] at h
  rcases h with (h | h) | h <;> simp [h]

theorem splitTopLevel?_ne_none (h : start.run cs = start) (separator : Char) :
    splitTopLevel? cs separator ≠ none := by
  rw [← Option.isSome_iff_ne_none, splitTopLevel?, isSome_splitFrom, h]
  rfl

/-- Puts a text in front of the first of several parts. -/
def prependFirst (as : List Char) : List (List Char) → List (List Char)
  | [] => [as]
  | p :: ps => (as ++ p) :: ps

theorem consFirst_prependFirst (a : Char) (as : List Char) (parts : List (List Char)) :
    consFirst a (prependFirst as parts) = prependFirst (a :: as) parts := by
  cases parts <;> rfl

theorem splitFrom_append {separator : Char} (h : s.findFrom [separator] as = none)
    (bs : List Char) : s.splitFrom separator (as ++ bs) =
      ((s.run as).splitFrom separator bs).map (prependFirst as) := by
  induction as generalizing s with
  | nil =>
    rw [List.nil_append, run_nil]
    cases hsplit : s.splitFrom separator bs with
    | none => rfl
    | some parts =>
      cases parts with
      | nil =>
        -- Splitting gives at least one part.
        cases bs with
        | nil =>
          simp only [splitFrom] at hsplit
          split at hsplit <;> cases hsplit
        | cons b bs =>
          simp only [splitFrom, Option.map_eq_some_iff] at hsplit
          obtain ⟨parts, -, hparts⟩ := hsplit
          split at hparts
          · cases hparts
          · cases parts <;> cases hparts
      | cons p parts => rfl
  | cons a as ih =>
    simp only [findFrom] at h
    split at h
    · cases h
    · rename_i hnot
      have ha : (!s.covers a && a == separator) = false := by
        simpa using hnot
      rw [List.cons_append, splitFrom, ih (Option.map_eq_none_iff.mp h), Option.map_map, run_cons]
      congr 1
      funext parts
      simp only [Function.comp, ha, Bool.false_eq_true, if_false, consFirst_prependFirst]

/-- A text that leaves the reader where it started and has no top-level separator belongs to the
first part. -/
theorem splitTopLevel?_append {separator : Char} (hrun : start.run as = start)
    (hfree : findDelimiter? as [separator] = none) (bs : List Char) :
    splitTopLevel? (as ++ bs) separator = (splitTopLevel? bs separator).map (prependFirst as) := by
  have := splitFrom_append hfree bs
  rwa [hrun] at this

theorem splitTopLevel?_cons {separator : Char} (hsep : isPlain separator = true) (cs : List Char) :
    splitTopLevel? (separator :: cs) separator = (splitTopLevel? cs separator).map ([] :: ·) := by
  rw [splitTopLevel?, splitFrom, feed_of_isPlain hsep, covers_of_isPlain hsep]
  simp [splitTopLevel?]

theorem splitTopLevel?_single {separator : Char} (hrun : start.run as = start)
    (hfree : findDelimiter? as [separator] = none) :
    splitTopLevel? as separator = some [as] := by
  have := splitTopLevel?_append hrun hfree []
  rw [List.append_nil] at this
  rw [this]
  simp [splitTopLevel?, splitFrom, isSettled, start, prependFirst]

theorem splitTopLevel?_separator {separator : Char} (hsep : isPlain separator = true)
    (hrun : start.run as = start) (hfree : findDelimiter? as [separator] = none)
    (bs : List Char) : splitTopLevel? (as ++ separator :: bs) separator =
      (splitTopLevel? bs separator).map (as :: ·) := by
  rw [splitTopLevel?_append hrun hfree, splitTopLevel?_cons hsep, Option.map_map]
  congr 1
  funext parts
  simp [prependFirst]

/-- Parts that leave the reader where it started and have no top-level separator, joined by the
separator, are split into the same parts. -/
theorem splitTopLevel?_join {separator : Char} (hsep : isPlain separator = true)
    (p : List Char) (ps : List (List Char))
    (hparts : ∀ q ∈ p :: ps, start.run q = start ∧ findDelimiter? q [separator] = none) :
    splitTopLevel? ([separator].intercalate (p :: ps)) separator = some (p :: ps) := by
  induction ps generalizing p with
  | nil =>
    obtain ⟨hrun, hfree⟩ := hparts p (List.mem_singleton_self p)
    rw [List.intercalate_singleton, splitTopLevel?_single hrun hfree]
  | cons q ps ih =>
    rw [List.forall_mem_cons] at hparts
    obtain ⟨⟨hrun, hfree⟩, hrest⟩ := hparts
    have hjoin : [separator].intercalate (p :: q :: ps) =
        p ++ separator :: [separator].intercalate (q :: ps) := by
      simp [List.intercalate]
    rw [hjoin, splitTopLevel?_separator hsep hrun hfree, ih q hrest]
    rfl

/-! ## Parts and pieces -/

/-- A well-nested text without a top-level comma. -/
structure IsPart (cs : List Char) : Prop where
  nested : WellNested cs
  no_comma : findDelimiter? cs [','] = none

theorem IsPart.append (has : IsPart as) (hbs : IsPart bs) : IsPart (as ++ bs) where
  nested := has.nested.append hbs.nested
  no_comma := by
    rw [findDelimiter?, findFrom_append has.no_comma, has.nested.run_start, ← findDelimiter?,
      hbs.no_comma]
    rfl

theorem isPart_of_allBlank (h : Text.allBlank cs = true) : IsPart cs := by
  induction cs with
  | nil => exact ⟨by decide, rfl⟩
  | cons c cs ih =>
    rw [Text.allBlank, List.all_cons, Bool.and_eq_true] at h
    have hplain := isPlain_of_isBlank h.1
    have hcomma : [','].contains c = false := by
      rw [List.contains_eq_mem, decide_eq_false_iff_not, List.mem_singleton]
      rintro rfl
      exact absurd h.1 (by decide)
    exact ⟨(ih h.2).nested.cons hplain, findDelimiter?_cons hplain hcomma (ih h.2).no_comma⟩

/-- Parts with commas between them are split into the parts. -/
theorem splitTopLevel?_parts {parts : List (List Char)} (hne : parts ≠ [])
    (h : ∀ p ∈ parts, IsPart p) : splitTopLevel? ([','].intercalate parts) ',' = some parts := by
  obtain ⟨p, ps, rfl⟩ := List.exists_cons_of_ne_nil hne
  exact splitTopLevel?_join (by decide) p ps fun q hq =>
    ⟨(h q hq).nested.run_start, (h q hq).no_comma⟩

theorem wellNested_intercalate {sep : List Char} (hsep : WellNested sep) {ps : List (List Char)}
    (h : ∀ p ∈ ps, WellNested p) : WellNested (sep.intercalate ps) := by
  induction ps with
  | nil => exact (rfl : WellNested [])
  | cons p ps ih =>
    rw [List.forall_mem_cons] at h
    by_cases hps : ps = []
    · rw [hps, List.intercalate_singleton]
      exact h.1
    · rw [List.intercalate_cons_of_ne_nil hps]
      exact (h.1.append hsep).append (ih h.2)

/-- A piece of host-language text that a comma after it ends. -/
@[mk_iff]
structure IsPiece (cs : List Char) : Prop where
  trimmed : Text.Trimmed cs
  ne_nil : cs ≠ []
  no_comma : findDelimiter? cs [','] = none
  nested : WellNested cs

instance (cs : List Char) : Decidable (IsPiece cs) := decidable_of_iff _ (isPiece_iff cs).symm

/-- A piece with blanks around it is a part. -/
theorem IsPiece.isPart (h : IsPiece cs) {padded : List Char} (hpadded : Text.Padded cs padded) :
    IsPart padded := by
  obtain ⟨lead, trail, hlead, htrail, rfl⟩ := hpadded
  have hpart : IsPart cs := ⟨h.nested, h.no_comma⟩
  exact (isPart_of_allBlank hlead).append (hpart.append (isPart_of_allBlank htrail))

/-- Texts with a comma and a space between them. -/
def commaSeparated (ps : List (List Char)) : List Char := [',', ' '].intercalate ps

theorem commaSeparated_singleton (p : List Char) : commaSeparated [p] = p :=
  List.intercalate_singleton

theorem commaSeparated_cons_cons (p q : List Char) (ps : List (List Char)) :
    commaSeparated (p :: q :: ps) = p ++ ',' :: ' ' :: commaSeparated (q :: ps) := by
  simp [commaSeparated, List.intercalate]

theorem head?_commaSeparated {p : List Char} (hne : p ≠ []) (ps : List (List Char)) :
    (commaSeparated (p :: ps)).head? = p.head? := by
  obtain ⟨c, cs, rfl⟩ := List.exists_cons_of_ne_nil hne
  cases ps with
  | nil => rw [commaSeparated_singleton]
  | cons q ps =>
    rw [commaSeparated_cons_cons]
    rfl

theorem wellNested_commaSeparated {ps : List (List Char)} (h : ∀ p ∈ ps, WellNested p) :
    WellNested (commaSeparated ps) :=
  wellNested_intercalate (by decide) h

/-- Joining with a comma and a space is joining with a comma, a space in front of all but the
first. -/
theorem commaSeparated_eq_intercalate (p : List Char) (ps : List (List Char)) :
    commaSeparated (p :: ps) = [','].intercalate (p :: ps.map (' ' :: ·)) := by
  induction ps generalizing p with
  | nil => rfl
  | cons q ps ih =>
    rw [commaSeparated_cons_cons, ih q]
    cases ps <;> simp [List.intercalate]

end Stencil.Nesting
