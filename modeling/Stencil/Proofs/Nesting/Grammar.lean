/-
The grammar of well-nested texts. A text is a sequence of items: plain characters, escapes, strings,
character literals and groups. Any closing bracket closes a group, and a character literal may hold
strings, in which an apostrophe does not end it.

`wellNested_grammar`: the well-nested texts are the printed sequences of items. In such a text the
characters that are inside nothing are the plain items of the sequence itself, so the delimiter
that is found is the first of these that is looked for.

One direction follows the items: each leads the reader back to the state it was met in
(`passes_print`). The other follows the text, from its end: what a state still demands of the rest
of a text is written down (`Demands`), and each character in front is one more part of an item
(`demands_step`).
-/
import Stencil.Proofs.Nesting.WellNested

namespace Stencil.Nesting

variable {s t u : Nesting} {c : Char} {as bs cs delimiters : List Char}

/-! ## Reading a text -/

/-- Whether each character of a text, read from `s`, is inside a literal, an escape or a group. -/
def marks (s : Nesting) : List Char → List Bool
  | [] => []
  | c :: cs => s.covers c :: (s.feed c).marks cs

/-- Read from `s`, the text leads to `t` and closes only groups that are open. The marks tell which
of its characters are inside something. -/
inductive Reads : Nesting → List Char → List Bool → Nesting → Prop
  | nil (s : Nesting) : Reads s [] [] s
  | cons {s t : Nesting} {c : Char} {cs : List Char} {ms : List Bool} :
      0 ≤ (s.feed c).depth → Reads (s.feed c) cs ms t → Reads s (c :: cs) (s.covers c :: ms) t

namespace Reads

variable {ms ns : List Bool}

theorem append (has : Reads s as ms t) (hbs : Reads t bs ns u) :
    Reads s (as ++ bs) (ms ++ ns) u := by
  induction has with
  | nil s => exact hbs
  | cons hdepth _ ih => exact .cons hdepth (ih hbs)

theorem run_eq (h : Reads s cs ms t) : s.run cs = t := by
  induction h with
  | nil s => rfl
  | cons _ _ ih => rw [run_cons, ih]

theorem marks_eq (h : Reads s cs ms t) : s.marks cs = ms := by
  induction h with
  | nil s => rfl
  | cons _ _ ih => rw [marks, ih]

theorem staysNested (h : Reads s cs ms t) (ht : t.isSettled = true) : s.staysNested cs = true := by
  induction h with
  | nil s => exact ht
  | cons hdepth _ ih =>
    rw [Nesting.staysNested, ih ht, Bool.and_true]
    exact decide_eq_true hdepth

/-- There is no delimiter in a text that is inside something throughout. -/
theorem findFrom_eq_none (h : Reads s cs ms t) (hms : ∀ m ∈ ms, m = true)
    (delimiters : List Char) : s.findFrom delimiters cs = none := by
  induction h with
  | nil s => rfl
  | cons _ _ ih =>
    rw [List.forall_mem_cons] at hms
    rw [findFrom, hms.1, ih hms.2]
    rfl

end Reads

/-- Read from `s`, every character of the text is inside something, and the text leads to `t`. -/
def Passes (s : Nesting) (cs : List Char) (t : Nesting) : Prop :=
  Reads s cs (List.replicate cs.length true) t

namespace Passes

theorem nil (s : Nesting) : Passes s [] s := Reads.nil s

theorem cons (hdepth : 0 ≤ (s.feed c).depth) (hcovers : s.covers c = true)
    (h : Passes (s.feed c) cs t) : Passes s (c :: cs) t := by
  have := Reads.cons hdepth h
  rwa [hcovers] at this

theorem append (has : Passes s as t) (hbs : Passes t bs u) : Passes s (as ++ bs) u := by
  unfold Passes
  rw [List.length_append, ← List.replicate_append_replicate]
  exact Reads.append has hbs

/-- One character, inside something. -/
theorem single (hstep : s.step c = (t, true)) (hdepth : 0 ≤ t.depth) : Passes s [c] t := by
  obtain rfl : s.feed c = t := congrArg Prod.fst hstep
  exact cons hdepth (congrArg Prod.snd hstep) (nil _)

/-- A text between two characters, of which the first leads to the state that the second ends. -/
theorem enclosed {opening closing : Char} (hopening : s.step opening = (t, true))
    (hclosing : t.step closing = (s, true)) (hs : 0 ≤ s.depth) (ht : 0 ≤ t.depth)
    (h : Passes t cs t) : Passes s (opening :: (cs ++ [closing])) s :=
  append (single hopening ht) (append h (single hclosing hs))

end Passes

/-! ## Items -/

/-- What ends or changes the reading of a string. -/
def stringSpecial : List Char := ['\\', '"']

/-- What ends or changes the reading of a character literal. -/
def charSpecial : List Char := ['\\', '"', '\'']

/-- A character of a literal: escaped by a backslash, or none of the special ones. -/
inductive Atom (special : List Char) where
  | escape (c : Char)
  | plain (c : Char) (h : c ∉ special)

def Atom.print {special : List Char} : Atom special → List Char
  | escape c => ['\\', c]
  | plain c _ => [c]

/-- A double-quoted string. -/
def printString (parts : List (Atom stringSpecial)) : List Char :=
  '"' :: (parts.flatMap Atom.print ++ ['"'])

/-- A part of a character literal. -/
inductive CharPart where
  | atom (a : Atom charSpecial)
  | string (parts : List (Atom stringSpecial))

def CharPart.print : CharPart → List Char
  | atom a => a.print
  | string parts => printString parts

/-- A piece of a well-nested text. -/
inductive Item where
  | plain (c : Char) (h : c ∉ specialChars)
  | escape (c : Char)
  | string (parts : List (Atom stringSpecial))
  | char (parts : List CharPart)
  | group (opening : Char) (items : List Item) (closing : Char)
      (hopening : isOpening opening = true) (hclosing : isClosing closing = true)

namespace Item

mutual

def print : Item → List Char
  | plain c _ => [c]
  | escape c => ['\\', c]
  | string parts => printString parts
  | char parts => '\'' :: (parts.flatMap CharPart.print ++ ['\''])
  | group opening items closing _ _ => opening :: (printAll items ++ [closing])

def printAll : List Item → List Char
  | [] => []
  | i :: is => i.print ++ printAll is

end

/-- Which characters of an item that is in no group are inside something: all but a plain one. -/
def marks : Item → List Bool
  | plain _ _ => [false]
  | i => List.replicate i.print.length true

theorem printAll_append (is js : List Item) : printAll (is ++ js) = printAll is ++ printAll js := by
  induction is with
  | nil => rfl
  | cons i is ih => rw [List.cons_append, printAll, printAll, ih, List.append_assoc]

end Item

/-! ## Items are read as such -/

theorem passes_escape (hescaped : s.escaped = false) (hdepth : 0 ≤ s.depth) (c : Char) :
    Passes s ['\\', c] s := by
  obtain ⟨inString, inChar, depth, escaped⟩ := s
  obtain rfl : escaped = false := hescaped
  exact .cons hdepth rfl (.single rfl hdepth)

theorem passes_stringAtoms (hstring : s.inString = true) (hescaped : s.escaped = false)
    (hdepth : 0 ≤ s.depth) (parts : List (Atom stringSpecial)) :
    Passes s (parts.flatMap Atom.print) s := by
  induction parts with
  | nil => exact .nil s
  | cons part parts ih =>
    rw [List.flatMap_cons]
    refine Passes.append ?_ ih
    cases part with
    | escape c => exact passes_escape hescaped hdepth c
    | plain c h =>
      simp only [stringSpecial, List.mem_cons, List.not_mem_nil, or_false, not_or] at h
      exact .single (by simp [step, hescaped, hstring, h]) hdepth

theorem passes_string (hstring : s.inString = false) (hescaped : s.escaped = false)
    (hdepth : 0 ≤ s.depth) (parts : List (Atom stringSpecial)) :
    Passes s (printString parts) s := by
  obtain ⟨inString, inChar, depth, escaped⟩ := s
  obtain rfl : inString = false := hstring
  obtain rfl : escaped = false := hescaped
  have hparts := passes_stringAtoms (s := ⟨true, inChar, depth, false⟩) rfl rfl hdepth parts
  exact .enclosed rfl rfl hdepth hdepth hparts

theorem passes_charParts (hchar : s.inChar = true) (hstring : s.inString = false)
    (hescaped : s.escaped = false) (hdepth : 0 ≤ s.depth) (parts : List CharPart) :
    Passes s (parts.flatMap CharPart.print) s := by
  induction parts with
  | nil => exact .nil s
  | cons part parts ih =>
    rw [List.flatMap_cons]
    refine Passes.append ?_ ih
    rcases part with (c | ⟨c, h⟩) | inner
    · exact passes_escape hescaped hdepth c
    · simp only [charSpecial, List.mem_cons, List.not_mem_nil, or_false, not_or] at h
      exact .single (by simp [step, hescaped, hstring, hchar, h]) hdepth
    · exact passes_string hstring hescaped hdepth inner

/-- Outside every literal, in `d` groups. -/
def within (d : Nat) : Nesting := ⟨false, false, d, false⟩

theorem depth_within (d : Nat) : 0 ≤ (within d).depth := Int.natCast_nonneg d

theorem step_opening (d : Nat) (h : isOpening c = true) :
    (within d).step c = (within (d + 1), true) := by
  simp only [isOpening, Bool.or_eq_true, beq_iff_eq] at h
  rcases h with (rfl | rfl) | rfl <;> rfl

theorem step_closing (d : Nat) (h : isClosing c = true) :
    (within (d + 1)).step c = (within d, true) := by
  simp only [isClosing, Bool.or_eq_true, beq_iff_eq] at h
  rcases h with (rfl | rfl) | rfl <;> simp [step, within, isOpening, isClosing]

theorem step_plain (d : Nat) (h : c ∉ specialChars) :
    (within d).step c = (within d, decide (0 < d)) := by
  simp only [specialChars, List.mem_cons, List.not_mem_nil, or_false, not_or] at h
  simp [step, within, isOpening, isClosing, h]

namespace Item

/-- A plain character. -/
def isPlain : Item → Bool
  | plain _ _ => true
  | _ => false

mutual

/-- An item leads back to the state it is met in. All of it is inside something, unless it is a
plain character that is in no group. -/
theorem passes_print (d : Nat) : ∀ i : Item, 0 < d ∨ i.isPlain = false →
    Passes (within d) i.print (within d)
  | plain c h, hd => by
    have hpos : 0 < d := hd.resolve_right Bool.noConfusion
    exact .single ((step_plain d h).trans (by rw [decide_eq_true hpos])) (depth_within d)
  | escape c, _ => passes_escape rfl (depth_within d) c
  | string parts, _ => passes_string rfl rfl (depth_within d) parts
  | char parts, _ =>
    have hparts :=
      passes_charParts (s := ⟨false, true, d, false⟩) rfl rfl rfl (depth_within d) parts
    .enclosed rfl rfl (depth_within d) (depth_within d) hparts
  | group _ items _ hopening hclosing, _ =>
    .enclosed (step_opening d hopening) (step_closing d hclosing) (depth_within d)
      (depth_within (d + 1)) (passes_printAll d items)

theorem passes_printAll (d : Nat) : ∀ items : List Item,
    Passes (within (d + 1)) (printAll items) (within (d + 1))
  | [] => .nil _
  | i :: is => (passes_print (d + 1) i (.inl d.succ_pos)).append (passes_printAll d is)

end

theorem reads_print (i : Item) : Reads start i.print i.marks start := by
  cases i with
  | plain c h =>
    have hstep := step_plain 0 h
    have hfeed : start.feed c = start := congrArg Prod.fst hstep
    have hcovers : start.covers c = false := congrArg Prod.snd hstep
    have := Reads.cons (s := start) (c := c) (by rw [hfeed]; exact Int.le_refl 0) (.nil _)
    rwa [hcovers, hfeed] at this
  | escape | string | char | group => exact passes_print 0 _ (.inr rfl)

theorem reads_printAll (items : List Item) :
    Reads start (printAll items) (items.flatMap marks) start := by
  induction items with
  | nil => exact .nil _
  | cons i is ih => exact i.reads_print.append ih

end Item

/-! ## What a state demands -/

/-- The rest of a text in `d` groups, read outside every literal: items, and for each group a
bracket that closes it. -/
def Closes : Nat → List Char → Prop
  | 0, cs => ∃ items, cs = Item.printAll items
  | d + 1, cs => ∃ items closing rest, isClosing closing = true ∧
      cs = Item.printAll items ++ closing :: rest ∧ Closes d rest

/-- The rest of a string, and what comes after it. -/
def EndsString (after : List Char → Prop) (cs : List Char) : Prop :=
  ∃ (parts : List (Atom stringSpecial)) (rest : List Char),
    cs = parts.flatMap Atom.print ++ '"' :: rest ∧ after rest

/-- The rest of a character literal, and what comes after it. -/
def EndsChar (after : List Char → Prop) (cs : List Char) : Prop :=
  ∃ (parts : List CharPart) (rest : List Char),
    cs = parts.flatMap CharPart.print ++ '\'' :: rest ∧ after rest

/-- What is demanded outside every string, in `d` groups: the end of a character literal first, if
the reader is in one. -/
def CharDemands : Bool → Nat → List Char → Prop
  | true, d => EndsChar (Closes d)
  | false, d => Closes d

/-- What is demanded when no escape is open: the end of a string first, if the reader is in one. -/
def StringDemands : Bool → Bool → Nat → List Char → Prop
  | true, inChar, d => EndsString (CharDemands inChar d)
  | false, inChar, d => CharDemands inChar d

/-- What a state demands of the rest of a text, so that it ends outside everything. -/
def Demands (s : Nesting) (cs : List Char) : Prop :=
  if s.escaped then
    ∃ c rest, cs = c :: rest ∧ StringDemands s.inString s.inChar s.depth.toNat rest
  else StringDemands s.inString s.inChar s.depth.toNat cs

theorem Closes.item {d : Nat} (h : Closes d cs) (i : Item) : Closes d (i.print ++ cs) := by
  cases d with
  | zero =>
    obtain ⟨items, rfl⟩ := h
    exact ⟨i :: items, rfl⟩
  | succ d =>
    obtain ⟨items, closing, rest, hclosing, rfl, hrest⟩ := h
    exact ⟨i :: items, closing, rest, hclosing, (List.append_assoc ..).symm, hrest⟩

/-- An opening bracket in front makes a group of what is closed first. -/
theorem Closes.opening {d : Nat} (h : Closes (d + 1) cs) (hc : isOpening c = true) :
    Closes d (c :: cs) := by
  obtain ⟨items, closing, rest, hclosing, rfl, hrest⟩ := h
  have := hrest.item (.group c items closing hc hclosing)
  simpa [Item.print] using this

theorem Closes.closing {d : Nat} (h : Closes d cs) (hc : isClosing c = true) :
    Closes (d + 1) (c :: cs) := ⟨[], c, cs, hc, rfl, h⟩

section

variable {after : List Char → Prop}

theorem EndsString.closing (h : after cs) : EndsString after ('"' :: cs) := ⟨[], cs, rfl, h⟩

theorem EndsString.atom (h : EndsString after cs) (a : Atom stringSpecial) :
    EndsString after (a.print ++ cs) := by
  obtain ⟨parts, rest, rfl, hrest⟩ := h
  exact ⟨a :: parts, rest, by simp, hrest⟩

/-- A quote in front makes a string of what ends first. -/
theorem EndsString.exists_string (h : EndsString after cs) :
    ∃ parts rest, '"' :: cs = printString parts ++ rest ∧ after rest := by
  obtain ⟨parts, rest, rfl, hrest⟩ := h
  exact ⟨parts, rest, by simp [printString], hrest⟩

theorem EndsChar.closing (h : after cs) : EndsChar after ('\'' :: cs) := ⟨[], cs, rfl, h⟩

theorem EndsChar.part (h : EndsChar after cs) (p : CharPart) : EndsChar after (p.print ++ cs) := by
  obtain ⟨parts, rest, rfl, hrest⟩ := h
  exact ⟨p :: parts, rest, by simp, hrest⟩

end

theorem StringDemands.escape {inString inChar : Bool} {d : Nat}
    (h : StringDemands inString inChar d cs) (c : Char) :
    StringDemands inString inChar d ('\\' :: c :: cs) := by
  -- The escape is a part of whatever is innermost.
  match inString, inChar with
  | true, _ => exact EndsString.atom h (.escape c)
  | false, true => exact EndsChar.part h (.atom (.escape c))
  | false, false => exact Closes.item h (.escape c)

theorem StringDemands.quote {inString inChar : Bool} {d : Nat}
    (h : StringDemands (!inString) inChar d cs) : StringDemands inString inChar d ('"' :: cs) := by
  match inString, inChar with
  | true, _ => exact EndsString.closing h
  | false, true =>
    obtain ⟨parts, rest, heq, hrest⟩ := EndsString.exists_string h
    rw [heq]
    exact EndsChar.part hrest (.string parts)
  | false, false =>
    obtain ⟨parts, rest, heq, hrest⟩ := EndsString.exists_string h
    rw [heq]
    exact Closes.item hrest (.string parts)

theorem CharDemands.apostrophe {inChar : Bool} {d : Nat} (h : CharDemands (!inChar) d cs) :
    CharDemands inChar d ('\'' :: cs) := by
  match inChar with
  | true => exact EndsChar.closing h
  | false =>
    obtain ⟨parts, rest, rfl, hrest⟩ := h
    have := Closes.item hrest (.char parts)
    simpa [CharDemands, Item.print] using this

/-- **A character in front of what the state after it demands is what the state before it
demands.** -/
theorem demands_step (hdepth : 0 ≤ s.depth) :
    0 ≤ (s.step c).1.depth → (s.step c).1.Demands cs → s.Demands (c :: cs) := by
  obtain ⟨inString, inChar, depth, escaped⟩ := s
  obtain ⟨d, rfl⟩ := Int.eq_ofNat_of_zero_le hdepth
  fun_cases step _ c with
  | case1 hescaped =>
    obtain rfl : escaped = true := hescaped
    exact fun _ h => ⟨c, cs, rfl, h⟩
  | case2 hescaped hc =>
    obtain rfl : escaped = false := by simpa using hescaped
    obtain rfl : c = '\\' := by simpa using hc
    rintro - ⟨e, rest, rfl, h⟩
    exact StringDemands.escape h e
  | case3 hescaped _ hc =>
    obtain rfl : escaped = false := by simpa using hescaped
    obtain rfl : c = '"' := by simpa using hc
    exact fun _ h => StringDemands.quote h
  | case4 hescaped hslash hquote hstring =>
    obtain rfl : escaped = false := by simpa using hescaped
    obtain rfl : inString = true := hstring
    rw [beq_iff_eq] at hslash hquote
    have hc : c ∉ stringSpecial := by simp [stringSpecial, hslash, hquote]
    exact fun _ h => EndsString.atom h (.plain c hc)
  | case5 hescaped _ _ hstring hc =>
    obtain rfl : escaped = false := by simpa using hescaped
    obtain rfl : inString = false := by simpa using hstring
    obtain rfl : c = '\'' := by simpa using hc
    exact fun _ h => CharDemands.apostrophe h
  | case6 hescaped hslash hquote hstring hapostrophe hchar =>
    obtain rfl : escaped = false := by simpa using hescaped
    obtain rfl : inString = false := by simpa using hstring
    obtain rfl : inChar = true := hchar
    rw [beq_iff_eq] at hslash hquote hapostrophe
    have hc : c ∉ charSpecial := by simp [charSpecial, hslash, hquote, hapostrophe]
    exact fun _ h => EndsChar.part h (.atom (.plain c hc))
  | case7 hescaped _ _ hstring _ hchar hopening =>
    obtain rfl : escaped = false := by simpa using hescaped
    obtain rfl : inString = false := by simpa using hstring
    obtain rfl : inChar = false := by simpa using hchar
    exact fun _ h => Closes.opening h hopening
  | case8 hescaped _ _ hstring _ hchar _ hclosing =>
    obtain rfl : escaped = false := by simpa using hescaped
    obtain rfl : inString = false := by simpa using hstring
    obtain rfl : inChar = false := by simpa using hchar
    intro hclosed h
    obtain ⟨e, rfl⟩ : ∃ e, d = e + 1 := Nat.exists_eq_add_one.mpr (by simp at hclosed; omega)
    have hdepth : ((e + 1 : Nat) : Int) - 1 = e := by omega
    simp only [hdepth] at h
    exact Closes.closing h hclosing
  | case9 hescaped hslash hquote hstring hapostrophe hchar hopening hclosing =>
    obtain rfl : escaped = false := by simpa using hescaped
    obtain rfl : inString = false := by simpa using hstring
    obtain rfl : inChar = false := by simpa using hchar
    have hc : c ∉ specialChars := by
      simp only [isOpening, isClosing, Bool.or_eq_true, beq_iff_eq, not_or] at *
      simp [specialChars, *]
    exact fun _ h => Closes.item h (.plain c hc)

/-- A text that stays nested is what the state demands. -/
theorem demands_of_staysNested (hdepth : 0 ≤ s.depth) (h : s.staysNested cs = true) :
    s.Demands cs := by
  induction cs generalizing s with
  | nil =>
    rw [eq_start_of_isSettled hdepth h]
    exact ⟨[], rfl⟩
  | cons c cs ih =>
    obtain ⟨hfeed, hcs⟩ := staysNested_cons h
    exact demands_step hdepth hfeed (ih hfeed hcs)

theorem wellNested_iff_exists_items : WellNested cs ↔ ∃ items, Item.printAll items = cs := by
  constructor
  · intro h
    obtain ⟨items, rfl⟩ := demands_of_staysNested (Int.le_refl 0) h
    exact ⟨items, rfl⟩
  · rintro ⟨items, rfl⟩
    exact (Item.reads_printAll items).staysNested rfl

/-! ## Delimiters -/

/-- No plain item of the sequence itself is one of the delimiters. -/
def Item.FreeOf (delimiters : List Char) (items : List Item) : Prop :=
  ∀ c hc, Item.plain c hc ∈ items → c ∉ delimiters

/-- A sequence has no such item, or a first one. -/
theorem Item.freeOf_or_exists (delimiters : List Char) (items : List Item) :
    FreeOf delimiters items ∨ ∃ front c hc back, items = front ++ plain c hc :: back ∧
      c ∈ delimiters ∧ FreeOf delimiters front := by
  induction items with
  | nil => exact .inl fun _ _ hmem => absurd hmem List.not_mem_nil
  | cons i is ih =>
    by_cases hi : FreeOf delimiters [i]
    · have hcons : ∀ {js}, FreeOf delimiters js → FreeOf delimiters (i :: js) := by
        intro js hjs c hc hmem
        rcases List.mem_cons.mp hmem with heq | hmem
        · exact hi c hc (List.mem_singleton.mpr heq)
        · exact hjs c hc hmem
      rcases ih with hfree | ⟨front, c, hc, back, rfl, hmem, hfront⟩
      · exact .inl (hcons hfree)
      · exact .inr ⟨i :: front, c, hc, back, rfl, hmem, hcons hfront⟩
    · simp only [FreeOf, not_forall, not_not] at hi
      obtain ⟨c, hc, hi, hmem⟩ := hi
      rw [← List.mem_singleton.mp hi]
      exact .inr ⟨[], c, hc, is, rfl, hmem, fun _ _ h => absurd h List.not_mem_nil⟩

theorem findDelimiter?_of_freeOf {items : List Item} (h : Item.FreeOf delimiters items) :
    findDelimiter? (Item.printAll items) delimiters = none := by
  induction items with
  | nil => rfl
  | cons i is ih =>
    have hrest := ih fun c hc hmem => h c hc (List.mem_cons_of_mem i hmem)
    have hfirst : start.findFrom delimiters i.print = none := by
      cases i with
      | plain c hc =>
        have hnot : delimiters.contains c = false := by
          simpa using h c hc List.mem_cons_self
        exact findDelimiter?_cons (isPlain_of_not_mem hc) hnot rfl
      | escape | string | char | group =>
        exact Reads.findFrom_eq_none (Item.passes_print 0 _ (.inr rfl)) (by simp) _
    rw [findDelimiter?, Item.printAll, findFrom_append hfirst, i.reads_print.run_eq,
      ← findDelimiter?, hrest]
    rfl

/-- **The well-nested texts are the sequences of items**, and in such a text the plain items of the
sequence are what is inside nothing: the delimiter that is found is the first of them that is looked
for. -/
theorem wellNested_grammar (cs : List Char) :
    (WellNested cs ↔ ∃ items, Item.printAll items = cs) ∧
      ∀ items, Item.printAll items = cs →
        (start.run cs).depth = 0 ∧ start.marks cs = items.flatMap Item.marks ∧
        ∀ delimiters : List Char,
          (∀ front c hc back, items = front ++ .plain c hc :: back → c ∈ delimiters →
            Item.FreeOf delimiters front →
              (findDelimiter? cs delimiters).map (fun k => (k.offset, k.delimiter)) =
                some (Text.byteLength (Item.printAll front), c)) ∧
          (Item.FreeOf delimiters items → findDelimiter? cs delimiters = none) := by
  refine ⟨wellNested_iff_exists_items, ?_⟩
  rintro items rfl
  have hreads := Item.reads_printAll items
  refine ⟨by rw [hreads.run_eq]; rfl, hreads.marks_eq, fun delimiters => ⟨?_, ?_⟩⟩
  · rintro front c hc back rfl hmem hfront
    have hrun := (Item.reads_printAll front).run_eq
    have hfind := findFrom_delimiter hrun (isPlain_of_not_mem hc) (List.contains_iff_mem.mpr hmem)
      (findDelimiter?_of_freeOf hfront) (Item.printAll back)
    rw [findDelimiter?, Item.printAll_append, Item.printAll, Item.print, List.singleton_append,
      hfind]
    rfl
  · exact findDelimiter?_of_freeOf

/-- A call with a string and a character literal that hold delimiters, closed by another kind of
bracket, and a name after it: `f(";"+')'}; x`. -/
def callItems : List Item :=
  [.plain 'f' (by decide),
    .group '(' [.string [.plain ';' (by decide)], .plain '+' (by decide),
      .char [.atom (.plain ')' (by decide))]] '}' rfl rfl,
    .plain ';' (by decide), .plain ' ' (by decide), .plain 'x' (by decide)]

theorem wellNested_grammar_call : WellNested r#"f(";"+')'}; x"#.toList ∧
    (findDelimiter? r#"f(";"+')'}; x"#.toList [';', ')']).map
      (fun k => (k.offset, k.delimiter)) = some (10, ';') := by
  obtain ⟨hiff, hitems⟩ := wellNested_grammar r#"f(";"+')'}; x"#.toList
  obtain ⟨-, -, hfind⟩ := hitems callItems (by decide)
  have hfree : Item.FreeOf [';', ')'] (callItems.take 2) := by
    intro c hc hmem
    obtain rfl : c = 'f' := by simpa [callItems] using hmem
    decide
  exact ⟨hiff.mpr ⟨callItems, by decide⟩,
    (hfind [';', ')']).1 _ ';' (by decide) (callItems.drop 3) rfl (by decide) hfree⟩

end Stencil.Nesting
