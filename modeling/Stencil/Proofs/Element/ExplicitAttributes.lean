/-
Shorthands are another spelling of attributes. A line with shorthands is read, and its opening tag
is the one that an attribute list gives: the last id, and the classes with single spaces between
them. A class or an id that is given in a list behind the shorthands is joined to the classes, or
replaces the id (`shorthands_explicit`).

Both lines are read as elements that are known in full (`parse_shorthands`, `parse_explicit`), and the
written attributes of such an element depend on its classes only through their join
(`openingTag_joined`).
-/
import Stencil.Proofs.Element.Printing

namespace Stencil.Element

open Text Nesting

/-- A text that stands for itself between quotes, and in a tag. -/
structure Bare (cs : List Char) : Prop where
  no_quote : '"' ∉ cs
  no_apostrophe : '\'' ∉ cs
  no_backslash : '\\' ∉ cs

/-- Texts with single spaces between them, if there are any. -/
def spaced (texts : List (List Char)) : Option (List Char) :=
  if texts.isEmpty then none else some ([' '].intercalate texts)

/-- The class that shorthands and a list give together: `C D`, or whichever of the two there is. -/
def joinClass : Option (List Char) → Option (List Char) → Option (List Char)
  | none, given => given
  | some names, none => some names
  | some names, some given => some (names ++ ' ' :: given)

/-- The list `(id="…", class="…")`, without an attribute that is not given. -/
def explicitList (id classes : Option (List Char)) : List Char :=
  '(' :: (commaSeparated
    ((id.map fun text => "id=\"".toList ++ text ++ ['"']).toList ++
      (classes.map fun text => "class=\"".toList ++ text ++ ['"']).toList) ++ [')'])

/-! ## Texts between quotes -/

theorem bare_of_class {p : Char → Bool} (hp : ['"', '\'', '\\'].all (fun c => !p c) = true)
    {cs : List Char} (h : ∀ c ∈ cs, p c = true) : Bare cs := by
  have hnot : ∀ c ∈ ['"', '\'', '\\'], c ∉ cs := fun c hc hmem =>
    not_mem_of_class hp (h c hmem) hc
  exact ⟨hnot _ (by decide), hnot _ (by decide), hnot _ (by decide)⟩

theorem bare_of_isShorthand {item : Char × List Char} (h : IsShorthand item) : Bare item.2 :=
  bare_of_class (by decide) h.2

theorem Bare.append {as bs : List Char} (has : Bare as) (hbs : Bare bs) : Bare (as ++ bs) where
  no_quote := by simp [has.no_quote, hbs.no_quote]
  no_apostrophe := by simp [has.no_apostrophe, hbs.no_apostrophe]
  no_backslash := by simp [has.no_backslash, hbs.no_backslash]

theorem bare_spaced {texts : List (List Char)} (h : ∀ text ∈ texts, Bare text) :
    ∀ text ∈ spaced texts, Bare text := by
  have hspace : Bare [' '] := ⟨by decide, by decide, by decide⟩
  have hjoin : Bare ([' '].intercalate texts) := by
    induction texts with
    | nil => exact ⟨by simp, by simp, by simp⟩
    | cons text texts ih =>
      rw [List.forall_mem_cons] at h
      by_cases hnil : texts = []
      · rw [hnil, List.intercalate_singleton]
        exact h.1
      · rw [List.intercalate_cons_of_ne_nil hnil]
        exact (h.1.append hspace).append (ih h.2)
  intro text htext
  unfold spaced at htext
  split at htext
  · cases htext
  · cases htext
    exact hjoin

/-- What follows the name of an attribute whose value is a text, with the text as it is. -/
def bareSpelling : AttributeValue → List Char
  | .literal text => '=' :: '"' :: (text.toList ++ ['"'])
  | value => value.print

theorem spelledAs_bare {text : List Char} (h : Bare text) :
    SpelledAs (textValue text) (bareSpelling (textValue text)) := by
  have hplain : ∀ c ∈ text, c ∉ stringSpecial := by
    intro c hc hmem
    simp only [stringSpecial, List.mem_cons, List.not_mem_nil, or_false] at hmem
    rcases hmem with rfl | rfl
    · exact h.no_backslash hc
    · exact h.no_quote hc
  obtain ⟨parts, hprint, hchar⟩ := exists_plain_atoms hplain
  have hspelled := spelledAs_printString parts
  rw [literalText_printString, hchar, flatMap_protectChar h.no_apostrophe, printString, hprint]
    at hspelled
  simpa [textValue, bareSpelling] using hspelled

/-! ## Reading -/

/-- The attributes of an explicit list. -/
def explicitEntries (id classes : Option (List Char)) : List (String × AttributeValue) :=
  (id.map fun text => ("id", textValue text)).toList ++
    (classes.map fun text => ("class", textValue text)).toList

theorem explicitList_eq (id classes : Option (List Char)) :
    explicitList id classes =
      '(' :: (writeEntries bareSpelling (explicitEntries id classes) ++ [')']) := by
  cases id <;> cases classes <;>
    simp [explicitList, explicitEntries, writeEntries, bareSpelling, textValue]

theorem withEntries_explicit (e : Element) (id classes : Option (List Char)) :
    e.withEntries (explicitEntries id classes) =
      { e with
        id := (id.map textValue).or e.id
        explicitClass := (classes.map textValue).or e.explicitClass } := by
  cases id <;> cases classes <;>
    simp [explicitEntries, withEntries_cons, withEntries_nil, setAttribute]

section Reading

variable {tag : String} (htag : tag ≠ "") {items : List (Char × List Char)}
  (hitems : ∀ item ∈ items, IsShorthand item)

include htag

/-- A line that ends with its attributes is read if they are. -/
theorem parse_of_attributes {rest : String} {cs : List Char} {e : Element}
    (hread : shorthands rest.toList = (items, cs))
    (hlist : parseAttributeList (items.foldl addShorthand { tag }) cs = .ok (e, [])) :
    parse tag rest = .ok { e with content := .empty } := by
  have hempty : tag.isEmpty = false := by simpa using htag
  simp [parse, hempty, hread, hlist, parseContent, bind, Except.bind]

include hitems

/-- Shorthands alone are read. -/
theorem parse_shorthands :
    parse tag (String.ofList (printShorthands items)) = .ok
      { tag
        id := (runsOf '#' items).getLast?.map textValue
        classes := (runsOf '.' items).map String.ofList } := by
  have hread : shorthands (String.ofList (printShorthands items)).toList = (items, []) := by
    rw [String.toList_ofList, ← List.append_nil (printShorthands items)]
    exact shorthands_print hitems (by simp)
  rw [parse_of_attributes htag hread rfl, foldl_addShorthand_eq hitems]
  simp

/-- Shorthands with an explicit list behind them are read. -/
theorem parse_explicit {id classes : Option (List Char)} (hid : ∀ text ∈ id, Bare text)
    (hclasses : ∀ text ∈ classes, Bare text) :
    parse tag (String.ofList (printShorthands items ++ explicitList id classes)) = .ok
      { tag
        id := (id.map textValue).or ((runsOf '#' items).getLast?.map textValue)
        classes := (runsOf '.' items).map String.ofList
        explicitClass := classes.map textValue } := by
  have hread : shorthands
      (String.ofList (printShorthands items ++ explicitList id classes)).toList =
        (items, explicitList id classes) := by
    rw [String.toList_ofList]
    refine shorthands_print hitems ?_
    rintro c ⟨⟩
    decide
  have hentries : ∀ a ∈ explicitEntries id classes,
      (a.1 ≠ "" ∧ ∀ c ∈ a.1.toList, isAttributeChar c = true) ∧
        SpelledAs a.2 (bareSpelling a.2) := by
    intro a ha
    simp only [explicitEntries, List.mem_append, Option.mem_toList, Option.map_eq_some_iff] at ha
    rcases ha with ⟨text, htext, rfl⟩ | ⟨text, htext, rfl⟩
    · exact ⟨⟨by simp, isAttributeChar_id⟩, spelledAs_bare (hid text htext)⟩
    · exact ⟨⟨by simp, isAttributeChar_class⟩, spelledAs_bare (hclasses text htext)⟩
  have hlist := parseAttributeList_write (fun a ha => (hentries a ha).1)
    (fun a ha => (hentries a ha).2) (items.foldl addShorthand { tag }) []
  rw [← explicitList_eq, withEntries_explicit, foldl_addShorthand_eq hitems] at hlist
  rw [parse_of_attributes htag hread (by rw [foldl_addShorthand_eq hitems, hlist])]
  simp

end Reading

/-! ## Opening tags -/

theorem ofList_intercalate (texts : List (List Char)) :
    " ".intercalate (texts.map String.ofList) = String.ofList ([' '].intercalate texts) := by
  rw [← String.toList_inj, String.toList_ofList, String.toList_intercalate, List.map_map]
  simp [Function.comp_def]

/-- The tag shows the classes and the given class joined, whichever of them there are. -/
theorem openingTag_joined (tag : String) (id : Option AttributeValue) {runs : List (List Char)}
    (hruns : [] ∉ runs) (given : Option (List Char)) :
    openingTag
        { tag, id, classes := runs.map String.ofList, explicitClass := given.map textValue } =
      openingTag { tag, id, explicitClass := (joinClass (spaced runs) given).map textValue } := by
  have hmerged : mergedClass
      { tag, id, classes := runs.map String.ofList, explicitClass := given.map textValue } =
        (joinClass (spaced runs) given).map fun text => ("", textValue text) := by
    by_cases hnil : runs = []
    · cases given <;> simp [hnil, spaced, joinClass, mergedClass]
    · have hnames : String.ofList ([' '].intercalate runs) ≠ "" := by
        rw [← ofList_intercalate]
        refine intercalate_ne_empty (by simpa using hnil) ?_
        simpa [String.ofList_eq_empty_iff] using hruns
      have hspaced : spaced runs = some ([' '].intercalate runs) := by simp [spaced, hnil]
      cases given with
      | none => simp [mergedClass, hspaced, joinClass, ofList_intercalate, hnames, textValue]
      | some d =>
        simp [mergedClass, hspaced, joinClass, ofList_intercalate, hnames, textValue,
          String.append_assoc]
  unfold openingTag writtenAttributes
  rw [hmerged]
  simp [mergedClass, Option.map_map, Function.comp_def]

/-! ## Shorthands and lists -/

/-- Two lines are read, and they open the same tag. -/
def SameTag (tag : String) (rest other : List Char) : Prop :=
  ∃ e f, parse tag (String.ofList rest) = .ok e ∧ parse tag (String.ofList other) = .ok f ∧
    e.openingTag = f.openingTag

section

variable {tag : String} {items : List (Char × List Char)}

theorem bare_last (hitems : ∀ item ∈ items, IsShorthand item) :
    ∀ text ∈ (runsOf '#' items).getLast?, Bare text := fun _ htext =>
  bare_of_isShorthand (hitems _ (mem_runsOf (List.mem_of_getLast? htext)).1)

theorem bare_classes (hitems : ∀ item ∈ items, IsShorthand item) :
    ∀ text ∈ spaced (runsOf '.' items), Bare text :=
  bare_spaced fun _ hrun => bare_of_isShorthand (hitems _ (mem_runsOf hrun).1)

theorem bare_joinClass {names given : Option (List Char)} (hnames : ∀ text ∈ names, Bare text)
    (hgiven : ∀ text ∈ given, Bare text) : ∀ text ∈ joinClass names given, Bare text := by
  have hspace : Bare [' '] := ⟨by decide, by decide, by decide⟩
  cases names with
  | none => exact hgiven
  | some names =>
    cases given with
    | none => exact hnames
    | some given =>
      rintro _ ⟨⟩
      exact (hnames names rfl).append (hspace.append (hgiven given rfl))

/-- A list alone is read. -/
theorem parse_explicitList (htag : tag ≠ "") {id classes : Option (List Char)}
    (hid : ∀ text ∈ id, Bare text) (hclasses : ∀ text ∈ classes, Bare text) :
    parse tag (String.ofList (explicitList id classes)) = .ok
      { tag, id := id.map textValue, explicitClass := classes.map textValue } := by
  have hnone : ∀ item ∈ ([] : List (Char × List Char)), IsShorthand item := by simp
  have hparse := parse_explicit htag hnone hid hclasses
  simpa [printShorthands, runsOf] using hparse

/-- Shorthands with a list behind them open the tag of one list. -/
theorem sameTag_explicit (htag : tag ≠ "") (hitems : ∀ item ∈ items, IsShorthand item)
    {id given : Option (List Char)} (hid : ∀ text ∈ id, Bare text)
    (hgiven : ∀ text ∈ given, Bare text) :
    SameTag tag (printShorthands items ++ explicitList id given)
      (explicitList (id.or (runsOf '#' items).getLast?)
        (joinClass (spaced (runsOf '.' items)) given)) := by
  have hid' : ∀ text ∈ id.or (runsOf '#' items).getLast?, Bare text := by
    cases id with
    | none => exact bare_last hitems
    | some text => exact hid
  refine ⟨_, _, parse_explicit htag hitems hid hgiven,
    parse_explicitList htag hid' (bare_joinClass (bare_classes hitems) hgiven), ?_⟩
  rw [openingTag_joined _ _ fun hmem => (mem_runsOf hmem).2 rfl, Option.map_or]

/-- **Shorthands open the tag of a list** with the last id and the classes joined by spaces. A class
in a list behind them is joined to these, and an id in a list behind them replaces theirs. -/
theorem shorthands_explicit (htag : tag ≠ "") (hitems : ∀ item ∈ items, IsShorthand item) :
    SameTag tag (printShorthands items)
        (explicitList (runsOf '#' items).getLast? (spaced (runsOf '.' items))) ∧
      (∀ given, Bare given → SameTag tag (printShorthands items ++ explicitList none (some given))
        (explicitList (runsOf '#' items).getLast?
          (joinClass (spaced (runsOf '.' items)) (some given)))) ∧
      ∀ given, Bare given → SameTag tag (printShorthands items ++ explicitList (some given) none)
        (explicitList (some given) (spaced (runsOf '.' items))) := by
  have hgiven : ∀ {given : List Char}, Bare given → ∀ text ∈ some given, Bare text := by
    rintro given h _ ⟨⟩
    exact h
  have hjoin : ∀ names, joinClass names none = names := by
    rintro (_ | names) <;> rfl
  refine ⟨?_, fun given h => ?_, fun given h => ?_⟩
  · refine ⟨_, _, parse_shorthands htag hitems,
      parse_explicitList htag (bare_last hitems) (bare_classes hitems), ?_⟩
    have := openingTag_joined tag ((runsOf '#' items).getLast?.map textValue)
      (fun hmem => (mem_runsOf hmem).2 rfl : [] ∉ runsOf '.' items) none
    rwa [hjoin] at this
  · exact sameTag_explicit htag hitems (by simp) (hgiven h)
  · have := sameTag_explicit htag hitems (hgiven h) (by simp : ∀ text ∈ none, Bare text)
    rwa [hjoin] at this

end

/-- Two ids and an empty one, an empty class between two others. -/
def boxItems : List (Char × List Char) :=
  [('#', ['t', 'o', 'p']), ('.', ['g', 'r', 'ö', 'ß', 'e']), ('.', []), ('#', ['b', 'o', 'x']),
    ('#', []), ('.', ['x', '-', '1'])]

theorem shorthands_explicit_box :
    (∀ item ∈ boxItems, IsShorthand item) ∧ Bare "a, (b".toList ∧
      SameTag "p" (printShorthands boxItems)
        (explicitList (some "box".toList) (some "größe x-1".toList)) ∧
      SameTag "p" (printShorthands boxItems ++ explicitList none (some "a, (b".toList))
        (explicitList (some "box".toList) (some "größe x-1 a, (b".toList)) ∧
      SameTag "p" (printShorthands boxItems ++ explicitList (some "a, (b".toList) none)
        (explicitList (some "a, (b".toList) (some "größe x-1".toList)) := by
  have hitems : ∀ item ∈ boxItems, IsShorthand item := by
    have hall : (boxItems.all fun item => isMarker item.1 && item.2.all isKeywordChar) = true := by
      decide +kernel
    simpa [IsShorthand] using hall
  have hbare : Bare "a, (b".toList := ⟨by decide, by decide, by decide⟩
  have hlast : (runsOf '#' boxItems).getLast? = some "box".toList := by decide
  have hspaced : spaced (runsOf '.' boxItems) = some "größe x-1".toList := by decide
  obtain ⟨halone, hclass, hid⟩ := shorthands_explicit (by decide : "p" ≠ "") hitems
  rw [hlast, hspaced] at halone
  have hbehind := hclass _ hbare
  rw [hlast, hspaced] at hbehind
  have hreplaced := hid _ hbare
  rw [hspaced] at hreplaced
  exact ⟨hitems, hbare, halone, hbehind, hreplaced⟩

end Stencil.Element
