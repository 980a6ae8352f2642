/-
The names that a file declares. Declarations stand at the beginning of a line, and the statements
of a routine do not: its body is indented, whatever it holds. So the names that a bundle declares
can be read off its lines. They are those that its header brings in and the two routines of each
component (`declared_bundle`).
-/
import Stencil.Proofs.Code.Routines
import Stencil.Proofs.Dialect.RoutineNames

namespace Stencil

open Text

namespace Language

/-- What stands before the name in a declaration. -/
def openings : Language → List String
  | .rust => ["pub fn ", "fn ", "pub const ", "const ", "pub static ", "static ", "pub struct ",
      "struct ", "pub enum ", "enum ", "pub trait ", "trait ", "pub type ", "type ", "pub mod ",
      "mod ", "pub use ", "use "]
  | .go => ["func ", "var ", "const ", "type "]

/-- Characters of a name. A number sign stands in those that would be keywords. -/
def isNameChar (c : Char) : Bool := isIdentifierChar c || c == '#'

/-- The name that a line declares. The name `_` declares nothing. -/
def declaredBy? (language : Language) (line : List Char) : Option String :=
  match language.openings.find? fun opening => opening.toList.isPrefixOf line with
  | none => none
  | some opening =>
    let name := String.ofList ((line.drop opening.toList.length).takeWhile isNameChar)
    if name == "_" then none else some name

/-- The line that opens a group of imports. -/
def importLine : List Char := "import (".toList

/-- The packages that the lines of a group import, up to the line that closes it. -/
def imported (lines : List (List Char)) : List String :=
  (lines.takeWhile (· != [')'])).map fun line =>
    String.ofList ((line.dropWhile fun c => !isNameChar c).takeWhile isNameChar)

/-- The names that the lines of a file declare or import. -/
def declared (language : Language) : List (List Char) → List String
  | [] => []
  | line :: rest =>
    (if line = importLine then imported rest else (language.declaredBy? line).toList)
      ++ declared language rest

/-- The packages that the header of a bundle imports. -/
def imports : Language → List String
  | .rust => []
  | .go => ["fmt", "html", "strings", "sync"]

/-- What the header of a bundle declares for all of its routines. -/
def helpers : Language → List String
  | .rust => []
  | .go => ["pool", "acquireStringsBuilder", "releaseStringsBuilder"]

theorem declared_cons {language : Language} {line : List Char} (h : line ≠ importLine)
    (rest : List (List Char)) : language.declared (line :: rest) =
      (language.declaredBy? line).toList ++ language.declared rest := by
  rw [declared, if_neg h]

theorem declared_append {language : Language} {ls : List (List Char)} (h : importLine ∉ ls)
    (ms : List (List Char)) :
    language.declared (ls ++ ms) = language.declared ls ++ language.declared ms := by
  induction ls with
  | nil => rfl
  | cons l ls ih =>
    simp only [List.mem_cons, not_or] at h
    rw [List.cons_append, declared_cons (Ne.symm h.1), declared_cons (Ne.symm h.1), ih h.2,
      List.append_assoc]

/-! ## Lines that declare nothing, and lines that declare a routine -/

/-- No declaration begins with the character. -/
def isIdle (language : Language) (c : Char) : Bool :=
  importLine.head? != some c && language.openings.all fun opening => opening.toList.head? != some c

/-- A line that is empty or begins with a character that no declaration begins with. -/
def Idle (language : Language) (line : List Char) : Prop :=
  ∀ c ∈ line.head?, language.isIdle c = true

theorem Idle.of_prefix {language : Language} {line front : List Char} (h : language.Idle line)
    (hfront : front <+: line) : language.Idle front := by
  obtain ⟨rest, rfl⟩ := hfront
  exact fun c hc => h c (List.mem_head?_append_of_mem_head? hc)

theorem declared_cons_of_idle {language : Language} {line : List Char} (h : language.Idle line)
    (rest : List (List Char)) : language.declared (line :: rest) = language.declared rest := by
  have himport : line ≠ importLine := by
    intro heq
    have hi := h 'i' (by rw [heq]; rfl)
    cases language <;> exact absurd hi (by decide)
  have hopening : ∀ opening ∈ language.openings, ¬opening.toList.isPrefixOf line = true := by
    have hne : ∀ opening ∈ language.openings, opening.toList ≠ [] := by cases language <;> decide
    intro opening hmem hprefix
    obtain ⟨c, cs, hchars⟩ := List.exists_cons_of_ne_nil (hne opening hmem)
    have hc : c ∈ opening.toList.head? := by simp [hchars]
    have hidle := h.of_prefix (List.isPrefixOf_iff_prefix.mp hprefix) c hc
    simp only [isIdle, Bool.and_eq_true, List.all_eq_true] at hidle
    exact absurd (hidle.2 opening hmem) (by simp [hchars])
  have hnone : language.declaredBy? line = none := by
    rw [declaredBy?, List.find?_eq_none.mpr hopening]
  rw [declared_cons himport, hnone]
  rfl

theorem declared_append_of_idle {language : Language} {ls : List (List Char)}
    (h : ∀ l ∈ ls, language.Idle l) (ms : List (List Char)) :
    language.declared (ls ++ ms) = language.declared ms := by
  induction ls with
  | nil => rfl
  | cons l ls ih =>
    rw [List.forall_mem_cons] at h
    rw [List.cons_append, declared_cons_of_idle h.1, ih h.2]

theorem idle_cons {language : Language} {c : Char} (h : language.isIdle c = true)
    (cs : List Char) : language.Idle (c :: cs) := by
  intro d hd
  cases hd
  exact h

/-- No language begins a declaration with one of these. -/
theorem isIdle_mark (language : Language) :
    ∀ c ∈ [' ', '\t', '/', '#', ')', '}'], language.isIdle c = true := by
  rw [← List.all_eq_true]
  cases language <;> decide

/-- A group of imports brings in its packages, and nothing else. -/
theorem declared_imports {language : Language} {group : List (List Char)}
    (hclose : [')'] ∉ group) (hidle : ∀ l ∈ group, language.Idle l) (ms : List (List Char)) :
    language.declared (importLine :: (group ++ [')'] :: ms)) =
      imported group ++ language.declared ms := by
  have hbefore : ∀ l ∈ group, (l != [')']) = true := by
    intro l hl
    have hne : l ≠ [')'] := fun heq => hclose (heq ▸ hl)
    simpa using hne
  have himported : imported (group ++ [')'] :: ms) = imported group := by
    rw [imported, imported, List.takeWhile_append_of_pos hbefore,
      List.takeWhile_cons_of_neg (by decide), List.append_nil,
      List.takeWhile_eq_self_iff.mpr hbefore]
  have hparenthesis : language.Idle [')'] := idle_cons (isIdle_mark language _ (by decide)) []
  rw [declared, if_pos rfl, himported, declared_append_of_idle hidle,
    declared_cons_of_idle hparenthesis]

/-- A name that a declaration can give. -/
structure IsName (name : String) : Prop where
  ne_empty : name ≠ ""
  ne_blank : name ≠ "_"
  chars : ∀ c ∈ name.toList, isNameChar c = true

theorem IsName.no_feed {name : String} (h : IsName name) : '\n' ∉ name.toList := fun hmem =>
  absurd (h.chars '\n' hmem) (by decide)

/-- What goes on behind a name is a name. -/
theorem IsName.append {front rest : String} (h : IsName front)
    (hrest : ∀ c ∈ rest.toList, isIdentifierChar c = true) : IsName (front ++ rest) where
  ne_empty heq := h.ne_empty (String.append_eq_empty_iff.mp heq).1
  ne_blank heq := by
    have hchars : front.toList ++ rest.toList = ['_'] := by
      rw [← String.toList_append, heq]
      rfl
    rcases List.append_eq_singleton_iff.mp hchars with ⟨hnil, -⟩ | ⟨hblank, -⟩
    · exact h.ne_empty (String.toList_eq_nil_iff.mp hnil)
    · exact h.ne_blank (String.toList_injective hblank)
  chars c hc := by
    rw [String.toList_append, List.mem_append] at hc
    rcases hc with hc | hc
    · exact h.chars c hc
    · simp [isNameChar, hrest c hc]

/-- What stands before the name of a routine. -/
def routineOpening : Language → String
  | .rust => "pub fn "
  | .go => "func "

theorem declaredBy?_routine (language : Language) {name : String} (h : IsName name)
    (rest : List Char) :
    language.declaredBy? (language.routineOpening.toList ++ (name.toList ++ '(' :: rest)) =
      some name := by
  have hfirst : ∃ others, language.openings = language.routineOpening :: others := by
    cases language <;> exact ⟨_, rfl⟩
  obtain ⟨others, hopenings⟩ := hfirst
  have hname : (name.toList ++ '(' :: rest).takeWhile isNameChar = name.toList := by
    rw [List.takeWhile_append_of_pos h.chars, List.takeWhile_cons_of_neg (by decide),
      List.append_nil]
  rw [declaredBy?, hopenings, List.find?_cons_of_pos (by simp)]
  simp [hname, h.ne_blank]

end Language

open Stencil.Language

section Lines

variable {language : Language}

theorem declared_lines_break {line : List Char} (h : Unbroken line) (himport : line ≠ importLine)
    (cs : List Char) : language.declared (lines (line ++ '\n' :: cs)) =
      (language.declaredBy? line).toList ++ language.declared (lines cs) := by
  rw [lines_break h, declared_cons himport]

theorem declared_lines_idle {line : List Char} (hfeed : '\n' ∉ line) (h : language.Idle line)
    (cs : List Char) :
    language.declared (lines (line ++ '\n' :: cs)) = language.declared (lines cs) := by
  obtain ⟨m, hm, hlines⟩ := exists_lines_feed hfeed cs
  rw [hlines, declared_cons_of_idle (h.of_prefix hm)]

theorem declared_lines_feed (cs : List Char) :
    language.declared (lines ('\n' :: cs)) = language.declared (lines cs) := by
  have hempty : language.Idle [] := by simp [Idle]
  exact declared_lines_idle List.not_mem_nil hempty cs

/-- A unit of indentation keeps every line of a body from declaring something. -/
theorem declared_indentBody {unit : String} (hfeed : '\n' ∉ unit.toList)
    (hunit : ∃ c ∈ unit.toList.head?, language.isIdle c = true) (body : String) (cs : List Char) :
    language.declared (lines ((Dialect.indentBody unit body).toList ++ cs)) =
      language.declared (lines cs) := by
  obtain ⟨c, hc, hidle⟩ := hunit
  have hindented : ∀ l : List Char, language.Idle (unit.toList ++ l) := by
    intro l d hd
    have hcd : some c = some d := (List.mem_head?_append_of_mem_head? hc).symm.trans hd
    cases hcd
    exact hidle
  unfold Dialect.indentBody
  have hlines : ∀ l ∈ lines body.toList, '\n' ∉ l := fun l hl => feed_not_mem_lines hl
  generalize lines body.toList = ls at hlines ⊢
  induction ls with
  | nil => simp
  | cons l ls ih =>
    rw [List.forall_mem_cons] at hlines
    rw [List.map_cons, String.join_cons, String.toList_append, List.append_assoc]
    refine Eq.trans ?_ (ih hlines.2)
    split
    · exact declared_lines_feed _
    · have hline : '\n' ∉ unit.toList ++ l := by simp [hfeed, hlines.1]
      simp only [String.toList_append, String.toList_ofList]
      rw [List.append_assoc (unit.toList ++ l)]
      exact declared_lines_idle hline (hindented l) _

theorem declared_routine {name : String} (hname : IsName name) {rest : List Char}
    (hrest : '\n' ∉ rest) (cs : List Char) :
    language.declared (lines (language.routineOpening.toList ++
      (name.toList ++ '(' :: (rest ++ ['{'])) ++ '\n' :: cs)) =
        name :: language.declared (lines cs) := by
  have hopening : '\n' ∉ language.routineOpening.toList := by cases language <;> decide
  have hline : Unbroken (language.routineOpening.toList ++
      (name.toList ++ '(' :: (rest ++ ['{']))) := by
    constructor
    · simp [hopening, hname.no_feed, hrest]
    · simp [List.getLast?_append, List.getLast?_cons]
  have himport : language.routineOpening.toList ++ (name.toList ++ '(' :: (rest ++ ['{'])) ≠
      importLine := by
    have hne : language.routineOpening.toList ≠ [] := by cases language <;> decide
    have hhead : language.routineOpening.toList.head? ≠ importLine.head? := by
      cases language <;> decide
    intro heq
    rw [← heq, List.head?_append_of_ne_nil _ hne] at hhead
    exact hhead rfl
  rw [declared_lines_break hline himport, declaredBy?_routine language hname]
  rfl

/-- Two routines declare their names: bodies, braces and the empty line between them do not. -/
theorem declared_framed {unit : String} (hfeed : '\n' ∉ unit.toList)
    (hunit : ∃ c ∈ unit.toList.head?, language.isIdle c = true) {b s : String} (hb : IsName b)
    (hs : IsName s) {first second : String} (hfirst : '\n' ∉ first.toList)
    (hsecond : '\n' ∉ second.toList) (buffered streaming : String) (cs : List Char) :
    language.declared (lines ((Dialect.framed unit (language.routineOpening ++ b ++ "(" ++ first)
      (language.routineOpening ++ s ++ "(" ++ second) buffered streaming).toList ++ cs)) =
        b :: s :: language.declared (lines cs) := by
  have hbrace : ∀ ds, language.declared (lines ('}' :: '\n' :: ds)) =
      language.declared (lines ds) := by
    have hidle : language.Idle ['}'] := idle_cons (isIdle_mark language _ (by decide)) []
    exact declared_lines_idle (by decide) hidle
  calc language.declared (lines ((Dialect.framed unit _ _ buffered streaming).toList ++ cs))
    _ = language.declared (lines (language.routineOpening.toList ++
          (b.toList ++ '(' :: (first.toList ++ ['{'])) ++ '\n' ::
          ((Dialect.indentBody unit buffered).toList ++ '}' :: '\n' :: '\n' ::
          (language.routineOpening.toList ++
          (s.toList ++ '(' :: (second.toList ++ ['{'])) ++ '\n' ::
          ((Dialect.indentBody unit streaming).toList ++ '}' :: '\n' :: cs))))) := by
      simp [Dialect.framed, Dialect.routine]
    _ = b :: s :: language.declared (lines cs) := by
      rw [declared_routine hb hfirst, declared_indentBody hfeed hunit, hbrace, declared_lines_feed,
        declared_routine hs hsecond, declared_indentBody hfeed hunit, hbrace]

end Lines

/-! ## Routines -/

namespace Dialect

/-- An identifier is a name, unless it is the blank one. -/
theorem isName_of_isIdentifier {name : String} (h : isIdentifier name.toList = true)
    (hblank : name ≠ "_") : IsName name where
  ne_empty heq := by
    rw [heq] at h
    cases h
  ne_blank := hblank
  chars c hc := by simp [isNameChar, isIdentifierChar_of_isIdentifier h c hc]

theorem Go.isName_routineNames {name b s : String} (hname : isIdentifier name.toList = true)
    (h : Go.routineNames name = some (b, s)) : IsName b ∧ IsName s := by
  have hstream : IsName "stream" := ⟨by decide, by decide, List.all_eq_true.mp (by decide)⟩
  obtain ⟨rfl, rfl, hblank, -⟩ := Go.of_routineNames h
  refine ⟨isName_of_isIdentifier hname hblank, hstream.append ?_⟩
  rw [String.toList_ofList]
  exact forall_mem_capitalize (isIdentifierChar_of_isIdentifier hname)

theorem Rust.isName_routineNames {name b s : String} (hname : isIdentifier name.toList = true)
    (h : Rust.routineNames name = some (b, s)) : IsName b ∧ IsName s := by
  have hsnake := isIdentifierChar_of_isIdentifier (Rust.isIdentifier_snakeName hname)
  have hstream : IsName "stream_" := ⟨by decide, by decide, List.all_eq_true.mp (by decide)⟩
  have hraw : IsName "r#" := ⟨by decide, by decide, List.all_eq_true.mp (by decide)⟩
  obtain ⟨hword, rfl⟩ := Rust.routineNames_eq_some.mp h
  obtain ⟨hblank, -, rfl⟩ := Rust.identifier?_inv hword
  refine ⟨?_, hstream.append hsnake⟩
  split
  · exact hraw.append hsnake
  · exact isName_of_isIdentifier (Rust.isIdentifier_snakeName hname) hblank

/-- The routines of a component are written under its two routine names. -/
theorem exists_framed {options : Options} {s : Signature} (hs : s.OneLine) {b t : String}
    (h : options.dialect.routineNames s.name = some (b, t)) : ∃ first second,
      '\n' ∉ first.toList ∧ '\n' ∉ second.toList ∧
      options.dialect.routines s = framed options.dialect.indentUnit
        (options.target.routineOpening ++ b ++ "(" ++ first)
        (options.target.routineOpening ++ t ++ "(" ++ second) := by
  have hparameters := feed_not_mem_declaredParameters hs
  unfold Options.dialect at h ⊢
  cases htarget : options.target with
  | rust =>
    rw [htarget] at h
    obtain ⟨word, -, heq⟩ := Option.map_eq_some_iff.mp h
    cases heq
    refine ⟨declaredParameters s ++ ") -> String ",
      callArguments "_b: &mut String" (declaredParameters s) ++ ") ", ?_, ?_, ?_⟩
    · exact feed_not_mem_append hparameters (by decide)
    · exact feed_not_mem_append (feed_not_mem_callArguments (by decide) hparameters) (by decide)
    · rw [← String.append_assoc, ← String.append_assoc]
      rfl
  | go =>
    rw [htarget] at h
    obtain ⟨rfl, rfl, -⟩ := Go.of_routineNames h
    refine ⟨declaredParameters s ++ ") string ",
      callArguments "_b *strings.Builder" (declaredParameters s) ++ ") ", ?_, ?_, ?_⟩
    · exact feed_not_mem_append hparameters (by decide)
    · exact feed_not_mem_append (feed_not_mem_callArguments (by decide) hparameters) (by decide)
    · rw [← String.append_assoc, ← String.append_assoc]
      rfl

end Dialect

theorem Options.isName_routineNames {options : Options} {name b t : String}
    (hname : isIdentifier name.toList = true)
    (h : options.dialect.routineNames name = some (b, t)) : IsName b ∧ IsName t := by
  unfold Options.dialect at h
  cases htarget : options.target with
  | rust =>
    rw [htarget] at h
    exact Dialect.Rust.isName_routineNames hname h
  | go =>
    rw [htarget] at h
    exact Dialect.Go.isName_routineNames hname h

/-- The names of the routines of a component. -/
def Dialect.routinePair (d : Dialect) (name : String) : List String :=
  match d.routineNames name with
  | some (b, t) => [b, t]
  | none => []

/-- What is compiled is named by an identifier and written under two routine names. -/
theorem exists_routines {options : Options} {source : String} {c : CompiledComponent}
    (h : c ∈ (compile options source).components) : ∃ s : Signature, s.OneLine ∧ s.name = c.name ∧
      isIdentifier c.name.toList = true ∧
      (options.dialect.routineNames c.name).isSome = true ∧
      c.code = options.dialect.routines s c.bufferedBody c.streamingBody := by
  cases hparse : Outline.parse options.dedent source with
  | error e => simp [compile, hparse] at h
  | ok outline =>
    rw [components_compile hparse] at h
    obtain ⟨c, hc, rfl⟩ := List.mem_map.mp h
    obtain ⟨-, -, text, warnings, -, hsignature, hnames⟩ := definition_of_mem_optimize hc
    exact ⟨c.signature, (emittable_optimize options hparse c hc).signature, rfl,
      Signature.isIdentifier_of_parse hsignature, hnames, rfl⟩

/-- The component is one of those that some source compiles to in the language. -/
def CompiledComponent.IsFor (language : Language) (c : CompiledComponent) : Prop :=
  ∃ (options : Options) (source : String), options.target = language ∧
    c ∈ (compile options source).components

/-- The names of routines do not depend on where the support library is. -/
theorem Options.routineNames_congr {options options' : Options}
    (h : options.target = options'.target) :
    options.dialect.routineNames = options'.dialect.routineNames := by
  unfold Options.dialect
  rw [h]
  cases options'.target <;> rfl

theorem CompiledComponent.IsFor.exists_routineNames {options : Options} {c : CompiledComponent}
    (h : c.IsFor options.target) : ∃ b t, options.dialect.routineNames c.name = some (b, t) ∧
      IsName b ∧ IsName t := by
  obtain ⟨o, source, htarget, hc⟩ := h
  obtain ⟨-, -, -, hidentifier, hsome, -⟩ := exists_routines hc
  rw [Options.routineNames_congr htarget] at hsome
  obtain ⟨⟨b, t⟩, hnames⟩ := Option.isSome_iff_exists.mp hsome
  exact ⟨b, t, hnames, Options.isName_routineNames hidentifier hnames⟩

theorem Options.indentUnit_idle (options : Options) :
    '\n' ∉ options.dialect.indentUnit.toList ∧
      ∃ c ∈ options.dialect.indentUnit.toList.head?, options.target.isIdle c = true := by
  have hspace : ' ' ∈ Dialect.Rust.indentUnit.toList.head? := by decide
  have htab : '\t' ∈ Dialect.Go.indentUnit.toList.head? := by decide
  unfold Options.dialect
  cases options.target with
  | rust => exact ⟨Dialect.Rust.isUnit_indentUnit.no_feed, ' ', hspace, isIdle_mark _ _ (by decide)⟩
  | go => exact ⟨Dialect.Go.isUnit_indentUnit.no_feed, '\t', htab, isIdle_mark _ _ (by decide)⟩

theorem declared_code {options : Options} {source : String} {c : CompiledComponent}
    (h : c ∈ (compile options source).components) (cs : List Char) :
    options.target.declared (lines (c.code.toList ++ cs)) =
      options.dialect.routinePair c.name ++ options.target.declared (lines cs) := by
  obtain ⟨s, hs, hname, -, -, hcode⟩ := exists_routines h
  obtain ⟨b, t, hnames, hb, ht⟩ :=
    CompiledComponent.IsFor.exists_routineNames ⟨options, source, rfl, h⟩
  have hpair : options.dialect.routinePair c.name = [b, t] := by
    rw [Dialect.routinePair, hnames]
  obtain ⟨first, second, hfirst, hsecond, hframed⟩ := Dialect.exists_framed hs (hname ▸ hnames)
  obtain ⟨hunit, hidle⟩ := options.indentUnit_idle
  rw [hcode, hframed, declared_framed hunit hidle hb ht hfirst hsecond, hpair]
  rfl

/-! ## Bundles -/

namespace Dialect

/-- The comment that every bundle begins with. -/
def headerComment : List Char := "// Code generated by sprig. DO NOT EDIT.".toList

theorem declared_headerComment (language : Language) (cs : List Char) :
    language.declared (lines (headerComment ++ '\n' :: cs)) = language.declared (lines cs) := by
  have hidle : language.Idle headerComment := idle_cons (isIdle_mark language '/' (by decide)) _
  have hfeed : '\n' ∉ headerComment := by
    delta headerComment
    rw [String.toList_ofList]
    decide
  exact declared_lines_idle hfeed hidle cs

theorem Rust.declared_fileHeader {package : String} (h : '\n' ∉ package.toList) (cs : List Char) :
    Language.rust.declared (lines ((Rust.fileHeader package).toList ++ cs)) =
      Language.rust.declared (lines cs) := by
  have hfront : "// Code generated by sprig. DO NOT EDIT.\n// Module: ".toList =
      headerComment ++ '\n' :: "// Module: ".toList := by
    delta headerComment
    iterate 3 rw [String.toList_ofList]
    rfl
  have hback : "\n#![allow(unused_mut, unused_variables, clippy::all)]\n".toList =
      '\n' :: ("#![allow(unused_mut, unused_variables, clippy::all)]".toList ++ ['\n']) := by
    iterate 2 rw [String.toList_ofList]
    rfl
  have htext : (Rust.fileHeader package).toList =
      headerComment ++ '\n' :: ("// Module: ".toList ++ package.toList ++ '\n' ::
        ("#![allow(unused_mut, unused_variables, clippy::all)]".toList ++ ['\n'])) := by
    delta Rust.fileHeader
    rw [String.toList_append, String.toList_append, hfront, hback]
    simp only [List.append_assoc, List.cons_append]
  have hmodule : Language.rust.Idle ("// Module: ".toList ++ package.toList) :=
    idle_cons (isIdle_mark _ '/' (by decide)) _
  have hallow : Language.rust.Idle "#![allow(unused_mut, unused_variables, clippy::all)]".toList :=
    idle_cons (isIdle_mark _ '#' (by decide)) _
  have hfeed : '\n' ∉ "// Module: ".toList ++ package.toList := by simp [h]
  rw [htext, List.append_assoc, List.cons_append, declared_headerComment, List.append_assoc,
    List.cons_append, declared_lines_idle hfeed hmodule, List.append_assoc, List.singleton_append,
    declared_lines_idle (by decide) hallow]

/-- The lines between the parentheses of the imports. -/
def Go.importGroup : List (List Char) :=
  ["\t\"fmt\"", "\t\"html\"", "\t\"strings\"", "\t\"sync\""].map String.toList

theorem Go.toList_fileHeader (package : String) : (Go.fileHeader package).toList =
    headerComment ++ '\n' :: '\n' :: ("package ".toList ++ package.toList ++ '\n' :: '\n' ::
      (unlines (importLine :: (Go.importGroup ++ [[')']])) ++ Go.poolHelpers.toList)) := by
  have hfront : "// Code generated by sprig. DO NOT EDIT.\n\npackage ".toList =
      headerComment ++ '\n' :: '\n' :: "package ".toList := by
    delta headerComment
    iterate 3 rw [String.toList_ofList]
    rfl
  have himports : "\n\nimport (\n\t\"fmt\"\n\t\"html\"\n\t\"strings\"\n\t\"sync\"\n)\n".toList =
      '\n' :: '\n' :: unlines (importLine :: (Go.importGroup ++ [[')']])) := by
    rw [String.toList_ofList]
    decide +kernel
  delta Go.fileHeader
  rw [String.toList_append, String.toList_append, String.toList_append, himports, hfront]
  simp only [List.append_assoc, List.cons_append]

/-- The helpers line by line. -/
theorem Go.lines_poolHelpers :
    Go.poolHelpers.toList = unlines (lines Go.poolHelpers.toList) ∧
      (∀ l ∈ lines Go.poolHelpers.toList, '\n' ∉ l ∧ l.getLast? ≠ some '\r') ∧
      importLine ∉ lines Go.poolHelpers.toList ∧
      Language.go.declared (lines Go.poolHelpers.toList) = Language.go.helpers := by
  delta Go.poolHelpers
  -- The kernel decodes literals slowly, so that the text is replaced by its characters first.
  rw [String.toList_ofList]
  decide +kernel

theorem Go.declared_imports_helpers (cs : List Char) :
    Language.go.declared (lines (unlines (importLine :: (Go.importGroup ++ [[')']])) ++
        (Go.poolHelpers.toList ++ cs))) =
      Language.go.imports ++ (Language.go.helpers ++ Language.go.declared (lines cs)) := by
  have himports : ∀ l ∈ importLine :: (Go.importGroup ++ [[')']]),
      '\n' ∉ l ∧ l.getLast? ≠ some '\r' := by
    decide +kernel
  have himported : imported Go.importGroup = Language.go.imports := by decide +kernel
  have hclose : [')'] ∉ Go.importGroup := by decide +kernel
  have hidle : ∀ l ∈ Go.importGroup, Language.go.Idle l := by
    have htab : ∀ l ∈ Go.importGroup, l.head? = some '\t' := by decide +kernel
    intro l hl c hc
    rw [htab l hl] at hc
    cases hc
    exact isIdle_mark _ '\t' (by decide)
  obtain ⟨htext, hlines, hnone, hhelpers⟩ := Go.lines_poolHelpers
  rw [lines_unlines_append fun l hl => ⟨(himports l hl).1, (himports l hl).2⟩, htext,
    lines_unlines_append fun l hl => ⟨(hlines l hl).1, (hlines l hl).2⟩, List.cons_append,
    List.append_assoc, List.singleton_append, declared_imports hclose hidle, declared_append hnone,
    himported, hhelpers]

theorem Go.declared_fileHeader {package : String} (h : '\n' ∉ package.toList) (cs : List Char) :
    Language.go.declared (lines ((Go.fileHeader package).toList ++ cs)) =
      Language.go.imports ++ (Language.go.helpers ++ Language.go.declared (lines cs)) := by
  have hpackage : Language.go.Idle ("package ".toList ++ package.toList) :=
    idle_cons (c := 'p') (by decide) _
  have hfeed : '\n' ∉ "package ".toList ++ package.toList := by simp [h]
  rw [Go.toList_fileHeader, List.append_assoc, List.cons_append, declared_headerComment,
    List.cons_append, declared_lines_feed, List.append_assoc, List.cons_append,
    declared_lines_idle hfeed hpackage, List.cons_append, declared_lines_feed, List.append_assoc,
    Go.declared_imports_helpers]

end Dialect

/-- The names that the header of a bundle brings in. -/
theorem declared_fileHeader (options : Options) (h : '\n' ∉ options.packageName.toList)
    (cs : List Char) :
    options.target.declared
        (lines ((options.dialect.fileHeader options.packageName).toList ++ cs)) =
      options.target.imports ++
        (options.target.helpers ++ options.target.declared (lines cs)) := by
  unfold Options.dialect
  cases options.target with
  | rust => exact Dialect.Rust.declared_fileHeader h cs
  | go => exact Dialect.Go.declared_fileHeader h cs

/-- The names that a bundle of these components declares, by its parts. -/
def Options.identifiers (options : Options) (components : List CompiledComponent) : List String :=
  options.target.imports ++ options.target.helpers ++
    components.flatMap fun c => options.dialect.routinePair c.name

theorem declared_components {options : Options} {components : List CompiledComponent}
    (h : ∀ c ∈ components, c.IsFor options.target) :
    options.target.declared (lines (String.join (components.map fun c => "\n" ++ c.code)).toList) =
      components.flatMap fun c => options.dialect.routinePair c.name := by
  induction components with
  | nil => rfl
  | cons c components ih =>
    rw [List.forall_mem_cons] at h
    obtain ⟨⟨o, source, htarget, hc⟩, hrest⟩ := h
    have hfeed : "\n".toList = ['\n'] := by decide
    rw [List.map_cons, String.join_cons, String.toList_append, String.toList_append, hfeed,
      List.append_assoc, List.singleton_append, declared_lines_feed, ← htarget, declared_code hc,
      htarget, ih hrest, List.flatMap_cons, Dialect.routinePair, Dialect.routinePair,
      Options.routineNames_congr htarget]

/-- **A bundle declares what its header brings in and the two routines of each component**, and
nothing else. -/
theorem declared_bundle {options : Options} (hpackage : '\n' ∉ options.packageName.toList)
    {components : List CompiledComponent} (h : ∀ c ∈ components, c.IsFor options.target) :
    options.target.declared (lines (bundle options components).toList) =
      options.identifiers components := by
  rw [bundle, String.toList_append, declared_fileHeader options hpackage, declared_components h,
    Options.identifiers, List.append_assoc]

end Stencil
