/-
Statements: what a line of a component's body says, apart from its text and from the lines below
it. A statement that can be printed is told by its printed line: the line has the kind of the
statement, its parts are read off it as they were, and lowering a node with this line around
children that lower to `body` gives the instructions that the statement makes of `body`
(`lowerNode_print`).
-/
import Stencil.Proofs.Component.Lowered
import Stencil.Proofs.Element.Printing
import Stencil.Proofs.LineKind.Words
import Stencil.Proofs.Template.Markup

namespace Stencil

open Text Nesting

inductive Statement where
  /-- An element. `list` asks for a pair of parentheses even if it has no attributes. -/
  | element (e : Element) (list : Bool)
  /-- A block under a line of the host language. -/
  | control (header : String)
  | each (binding iterable : String)
  /-- The value of an expression, as it is. -/
  | embed (expr : String)
  /-- A call, alone or with arguments in parentheses. -/
  | call (name : String) (args : Option String)
  | comment (text : String)

namespace Statement

/-- The line of a statement. -/
def print : Statement → List Char
  | element e list => e.tag.toList ++ e.printRest list
  | control header => header.toList
  | each binding iterable =>
    "each".toList ++ ' ' :: (binding.toList ++ ' ' :: 'i' :: 'n' :: ' ' :: iterable.toList)
  | embed expr => 'g' :: 'o' :: ':' :: expr.toList
  | call name none => name.toList
  | call name (some args) => name.toList ++ '(' :: (args.toList ++ [')'])
  | comment text => '/' :: '/' :: text.toList

/-- The statements that take no lines below them. -/
def isLeaf : Statement → Bool
  | element _ _ | control _ | each _ _ => false
  | embed _ | call _ _ | comment _ => true

/-- The instructions of a statement around those of the lines below it. -/
def lower (options : Options) (body : Instructions) : Statement → Instructions
  | element e _ => e.markup options body
  | control header => [.control (.raw header) body]
  | each binding iterable => [.control (.each binding iterable) body]
  | embed expr => [.expression expr false]
  | call name args => [.call name (args.getD "")]
  | comment _ => []

/-- The statements whose lines are read back. -/
def Printable : Statement → Prop
  | element e _ => e.Printable ∧ e.tag.toList.all isKeywordChar = true ∧
      e.tag.toList.head?.any isUppercase = false ∧
      e.tag ∉ ["component", "each", "if", "else", "for"]
  | control header => header.toList.getLast?.any isBlank = false ∧
      LineKind.keyword header ∈ ["if", "else", "for"]
  | each binding iterable => binding ≠ "" ∧ binding.toList.any isBlank = false ∧
      iterable ≠ "" ∧ Trimmed iterable.toList
  | embed expr => expr ≠ "" ∧ Trimmed expr.toList
  | call name args => name.toList.all isIdentifierChar = true ∧
      name.toList.head?.any isUppercase = true ∧
      ∀ a ∈ args, Trimmed a.toList ∧ WellNested a.toList
  | comment _ => True

instance decidablePrintable : ∀ s : Statement, Decidable s.Printable
  | element _ _ => inferInstanceAs (Decidable (_ ∧ _ = _ ∧ _ = _ ∧ _ ∉ _))
  | control _ => inferInstanceAs (Decidable (_ = _ ∧ _ ∈ _))
  | each _ _ => inferInstanceAs (Decidable (_ ≠ _ ∧ _ = _ ∧ _ ≠ _ ∧ Trimmed _))
  | embed _ => inferInstanceAs (Decidable (_ ≠ _ ∧ Trimmed _))
  | call _ args => inferInstanceAs (Decidable (_ = _ ∧ _ = _ ∧ ∀ a ∈ args, Trimmed a.toList ∧ _))
  | comment _ => inferInstanceAs (Decidable True)

end Statement

/-! ## The parts of a line -/

/-- A text without a space is passed over up to the ` in ` after it. -/
theorem cutIn_append {before : List Char} (h : ' ' ∉ before) (after : List Char) :
    cutIn (before ++ ' ' :: 'i' :: 'n' :: ' ' :: after) = some (before, after) := by
  induction before with
  | nil => rfl
  | cons c before ih =>
    rw [List.mem_cons, not_or] at h
    rw [List.cons_append, cutIn, ih h.2]
    · rfl
    · rintro _ rfl
      exact absurd rfl h.1

theorem Header.ofClause_print {binding iterable : String} (hne : binding ≠ "")
    (hbinding : ∀ c ∈ binding.toList, isBlank c = false) (hne' : iterable ≠ "")
    (hiterable : Trimmed iterable.toList) :
    Header.ofClause (String.ofList (trim
      (binding.toList ++ ' ' :: 'i' :: 'n' :: ' ' :: iterable.toList))) =
        .ok (.each binding iterable) := by
  have hb : binding.toList ≠ [] := mt String.toList_eq_nil_iff.mp hne
  have hi : iterable.toList ≠ [] := mt String.toList_eq_nil_iff.mp hne'
  have hspace : ' ' ∉ binding.toList := fun hmem => by
    have := hbinding ' ' hmem
    revert this
    decide
  have htrim : Trimmed binding.toList :=
    trimmed_of (fun c hc => hbinding c (List.mem_of_head? hc))
      fun c hc => hbinding c (List.mem_of_getLast? hc)
  have hclause : Trimmed (binding.toList ++ ' ' :: 'i' :: 'n' :: ' ' :: iterable.toList) := by
    refine trimmed_of (htrim.head_append hb _) fun c hc => hiterable.getLast c ?_
    have hsplit : binding.toList ++ ' ' :: 'i' :: 'n' :: ' ' :: iterable.toList =
        (binding.toList ++ [' ', 'i', 'n', ' ']) ++ iterable.toList := by simp
    rw [hsplit, List.getLast?_append, List.getLast?_eq_some_getLast hi, Option.some_or] at hc
    rwa [List.getLast?_eq_some_getLast hi]
  simp only [Header.ofClause, hclause.trim_eq, String.toList_ofList, cutIn_append hspace,
    htrim.allBlank_eq hb, hiterable.allBlank_eq hi, htrim.trim_eq, hiterable.trim_eq,
    String.ofList_toList]
  rfl

theorem Instruction.ofEmbedded_print {expr : String} (hne : expr ≠ "") (h : Trimmed expr.toList) :
    Instruction.ofEmbedded expr = .ok (.expression expr false) := by
  simp only [Instruction.ofEmbedded, h.allBlank_eq (mt String.toList_eq_nil_iff.mp hne), h.trim_eq,
    Bool.false_eq_true, if_false, String.ofList_toList]

theorem Instruction.ofCall_name {name : String}
    (hname : ∀ c ∈ name.toList, isIdentifierChar c = true) :
    Instruction.ofCall name = .ok (.call name "") := by
  have htrim : trimEnd name.toList = name.toList :=
    trimEnd_of_getLast fun c hc => isBlank_of_isIdentifierChar (hname c (List.mem_of_getLast? hc))
  have hend : ∀ c ∈ ([] : List Char).head?, isIdentifierChar c = false := by simp
  have htake := takeWhile_run hname hend
  have hdrop := dropWhile_run hname hend
  rw [List.append_nil] at htake hdrop
  simp only [Instruction.ofCall, htrim, htake, hdrop, String.ofList_toList]

theorem Instruction.ofCall_args {name args : String}
    (hname : ∀ c ∈ name.toList, isIdentifierChar c = true) (htrimmed : Trimmed args.toList)
    (hnested : WellNested args.toList) :
    Instruction.ofCall (String.ofList (name.toList ++ '(' :: (args.toList ++ [')']))) =
      .ok (.call name args) := by
  have htrim : trimEnd (name.toList ++ '(' :: (args.toList ++ [')'])) =
      name.toList ++ '(' :: (args.toList ++ [')']) := by
    refine trimEnd_of_getLast fun c hc => ?_
    rw [← List.cons_append, ← List.append_assoc, List.getLast?_concat] at hc
    cases hc
    decide
  have hend : ∀ c ∈ ('(' :: (args.toList ++ [')'])).head?, isIdentifierChar c = false := by
    rintro c ⟨⟩
    decide
  have hgroup : closeGroup? ('(' :: (args.toList ++ [')'])) = some ⟨args.toList, ')', []⟩ :=
    closeGroup?_group hnested []
  simp only [Instruction.ofCall, String.toList_ofList, htrim, takeWhile_run hname hend,
    dropWhile_run hname hend, hgroup, htrimmed.trim_eq, String.ofList_toList]
  rfl

/-! ## Lowering a line -/

/-- A printed line starts with a character that is not blank. -/
theorem Statement.head_print {s : Statement} (h : s.Printable) :
    ∃ c cs, s.print = c :: cs ∧ isBlank c = false := by
  cases s with
  | element e list =>
    obtain ⟨hprintable, htag, -, -⟩ := h
    obtain ⟨c, cs, hcs⟩ :=
      List.exists_cons_of_ne_nil (mt String.toList_eq_nil_iff.mp hprintable.tag)
    refine ⟨c, cs ++ e.printRest list, by rw [print, hcs, List.cons_append], ?_⟩
    exact isBlank_of_isKeywordChar (List.all_eq_true.mp htag c (hcs ▸ List.mem_cons_self))
  | control header =>
    obtain ⟨-, hkeyword⟩ := h
    -- The line starts with a word, which has a first character.
    rcases htake : header.toList.takeWhile isKeywordChar with _ | ⟨c, cs⟩
    · rw [LineKind.keyword, htake] at hkeyword
      exact absurd hkeyword (by decide)
    · refine ⟨c, cs ++ header.toList.dropWhile isKeywordChar, ?_, ?_⟩
      · rw [print, ← List.cons_append, ← htake, List.takeWhile_append_dropWhile]
      · have hmem : c ∈ header.toList.takeWhile isKeywordChar := htake ▸ List.mem_cons_self
        exact isBlank_of_isKeywordChar (List.mem_takeWhile_imp hmem)
  | each binding iterable => exact ⟨'e', _, rfl, by decide⟩
  | embed expr => exact ⟨'g', _, rfl, by decide⟩
  | call name args =>
    obtain ⟨hname, hhead, -⟩ := h
    rcases hcs : name.toList with _ | ⟨c, cs⟩
    · rw [hcs] at hhead
      cases hhead
    · have hblank := isBlank_of_isIdentifierChar (List.all_eq_true.mp hname c
        (hcs ▸ List.mem_cons_self))
      cases args with
      | none => exact ⟨c, cs, hcs, hblank⟩
      | some args => exact ⟨c, cs ++ '(' :: (args.toList ++ [')']), by rw [print, hcs]; rfl, hblank⟩
  | comment text => exact ⟨'/', _, rfl, by decide⟩

namespace Statement

/-- **A printed line is lowered as its statement says.** -/
theorem lowerNode_print {options : Options} {s : Statement} (h : s.Printable) {number indent : Nat}
    {children : List Node} {body : Instructions} (hleaf : s.isLeaf = true → children = [])
    (hbody : lowerNodes options children = .ok body) :
    lowerNode options ⟨⟨number, indent, String.ofList s.print⟩, children⟩ =
      .ok (s.lower options body) := by
  rw [lowerNode]
  cases s with
  | element e list =>
    obtain ⟨hprintable, htag, hlower, hreserved⟩ := h
    rw [List.all_eq_true] at htag
    have hmarkup := Element.lower_eq_markup options (fun name hname =>
      (hprintable.classes name hname).1) body
    simp only [print, LineKind.ofText_element hprintable.tag htag hlower hreserved
      (e.head_printRest list), Element.parse_printRest hprintable list, Lowered.read, hbody,
      Lowered.ok_bind, Lowered.pure_eq_ok, lower, hmarkup]
  | control header =>
    obtain ⟨hlast, hkeyword⟩ := h
    replace hlast : ∀ c ∈ header.toList.getLast?, isBlank c = false := by
      intro c hc
      rwa [Option.mem_def.mp hc] at hlast
    obtain ⟨k, hk⟩ := LineKind.ofText_control hlast hkeyword
    simp only [print, String.ofList_toList, hk, hbody, Lowered.ok_bind, Lowered.pure_eq_ok, lower]
  | each binding iterable =>
    obtain ⟨hne, hbinding, hne', hiterable⟩ := h
    replace hbinding : ∀ c ∈ binding.toList, isBlank c = false := by simpa using hbinding
    simp only [print, LineKind.ofText_each, Header.ofClause_print hne hbinding hne' hiterable,
      Lowered.read, hbody, Lowered.ok_bind, Lowered.pure_eq_ok, lower]
  | embed expr =>
    obtain ⟨hne, htrimmed⟩ := h
    simp only [print, LineKind.ofText_embed, String.ofList_toList,
      Instruction.ofEmbedded_print hne htrimmed, Lowered.read, Lowered.ok_bind,
      Lowered.pure_eq_ok, lower]
  | call name args =>
    obtain ⟨hname, hhead, hargs⟩ := h
    rw [List.all_eq_true] at hname
    obtain rfl := hleaf rfl
    cases args with
    | none =>
      have hkind := LineKind.ofText_call hhead
      rw [String.ofList_toList] at hkind
      simp only [print, String.ofList_toList, hkind, Instruction.ofCall_name hname, Lowered.read,
        Lowered.ok_bind, lower]
      rfl
    | some args =>
      obtain ⟨htrimmed, hnested⟩ := hargs args rfl
      have hhead' :
          (name.toList ++ '(' :: (args.toList ++ [')'])).head?.any isUppercase = true := by
        cases hcs : name.toList with
        | nil =>
          rw [hcs] at hhead
          cases hhead
        | cons c cs =>
          rw [hcs] at hhead
          exact hhead
      simp only [print, LineKind.ofText_call hhead', Instruction.ofCall_args hname htrimmed hnested,
        Lowered.read, Lowered.ok_bind, lower]
      rfl
  | comment text => simp only [print, LineKind.ofText_comment, Lowered.pure_eq_ok, lower]

end Statement

end Stencil
