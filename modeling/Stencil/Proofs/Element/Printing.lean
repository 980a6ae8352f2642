/-
Elements print and read back. An element is printed as its tag, a `.name` for each class, its
attributes in parentheses (id, class, then the others in order) and its content.

`parse_printRest`: the line of an element whose names and values can be written is read as that
element. A value can be written if the reader of groups and delimiters takes it for one piece.
-/
import Stencil.Proofs.Element.Literals
import Stencil.Proofs.Element.Shorthands
import Stencil.Proofs.Text.Trimmed

namespace Stencil

open Text Nesting

/-! ## Printing -/

/-- What follows the name of an attribute. -/
def AttributeValue.print : AttributeValue → List Char
  | .boolean => []
  | .literal text => '=' :: quote text.toList
  | .expression expr true => '=' :: expr.toList
  | .expression expr false => '!' :: '=' :: expr.toList

/-- What ends the line of an element. -/
def Content.print : Content → List Char
  | .empty => []
  | .text t => ' ' :: t.toList
  | .expression expr true => '=' :: expr.toList
  | .expression expr false => '!' :: '=' :: expr.toList

namespace Element

/-- The attributes in the order they are printed. -/
def entries (e : Element) : List (String × AttributeValue) :=
  (e.id.map fun value => ("id", value)).toList
    ++ (e.explicitClass.map fun value => ("class", value)).toList ++ e.attributes

def printEntry (entry : String × AttributeValue) : List Char := entry.1.toList ++ entry.2.print

def printEntries (entries : List (String × AttributeValue)) : List Char :=
  commaSeparated (entries.map printEntry)

/-- The attributes in parentheses. An element without attributes gets a list only if `list` asks
for it. -/
def printList (e : Element) (list : Bool) : List Char :=
  if list || !e.entries.isEmpty then '(' :: (printEntries e.entries ++ [')']) else []

/-- What follows the tag in the line of an element. -/
def printRest (e : Element) (list : Bool) : List Char :=
  e.classes.flatMap (fun name => '.' :: name.toList) ++ (e.printList list ++ e.content.print)

end Element

/-! ## What can be printed -/

/-- An attribute's value is printed as a piece that is read as this value again. -/
def AttributeValue.Printable : AttributeValue → Prop
  | .boolean => True
  | .literal text => '\'' ∉ text.toList
  | .expression expr _ => IsPiece expr.toList ∧ expr.toList.head? ≠ some '\'' ∧
      isStringLiteral expr.toList = false

instance AttributeValue.decidablePrintable : ∀ value : AttributeValue, Decidable value.Printable
  | .boolean => inferInstanceAs (Decidable True)
  | .literal text => inferInstanceAs (Decidable ('\'' ∉ text.toList))
  | .expression expr _ => inferInstanceAs (Decidable (IsPiece expr.toList ∧ _ ≠ _ ∧ _ = _))

def Content.Printable : Content → Prop
  | .empty => True
  | .text t => t ≠ ""
  | .expression expr _ => expr ≠ "" ∧ Trimmed expr.toList

instance Content.decidablePrintable : ∀ content : Content, Decidable content.Printable
  | .empty => inferInstanceAs (Decidable True)
  | .text t => inferInstanceAs (Decidable (t ≠ ""))
  | .expression expr _ => inferInstanceAs (Decidable (expr ≠ "" ∧ Trimmed expr.toList))

namespace Element

/-- Elements that can be printed: names are made of the characters of their class, each attribute
is given once, and values and content are ones that are read back. -/
@[mk_iff]
structure Printable (e : Element) : Prop where
  tag : e.tag ≠ ""
  classes : ∀ name ∈ e.classes, name ≠ "" ∧ name.toList.all isKeywordChar = true
  names : ∀ a ∈ e.attributes, a.1 ≠ "" ∧ a.1 ≠ "id" ∧ a.1 ≠ "class" ∧
    a.1.toList.all isAttributeChar = true
  distinct : (e.attributes.map (·.1)).Nodup
  values : ∀ a ∈ e.entries, a.2.Printable
  content : e.content.Printable

instance decidablePrintable (e : Element) : Decidable e.Printable :=
  decidable_of_iff _ (printable_iff e).symm

/-! ## Values -/

theorem isPiece_printString (parts : List (Atom stringSpecial)) : IsPiece (printString parts) where
  trimmed := by
    refine trimmed_of (fun c hc => ?_) fun c hc => ?_
    · cases hc
      decide
    · rw [printString, ← List.cons_append, List.getLast?_concat] at hc
      cases hc
      decide
  ne_nil := List.cons_ne_nil _ _
  no_comma := findDelimiter?_printString parts [',']
  nested := wellNested_printString parts

/-- The sign in front of a value. -/
def sign (escape : Bool) : List Char := if escape then ['='] else ['!', '=']

/-- What is read as the value behind the name of an attribute: nothing for a name alone, or a sign
and a piece. -/
def SpelledAs (value : AttributeValue) (text : List Char) : Prop :=
  (value = .boolean ∧ text = []) ∨ ∃ escape raw, IsPiece raw ∧ text = sign escape ++ raw ∧
    ∀ name, parseValue name escape raw = .ok value

theorem spelledAs_printString (parts : List (Atom stringSpecial)) :
    SpelledAs (.literal (String.ofList (literalText (printString parts))))
      ('=' :: printString parts) := by
  refine .inr ⟨true, printString parts, isPiece_printString parts, rfl, fun name => ?_⟩
  have hliteral := isStringLiteral_printString parts
  rw [printString] at hliteral ⊢
  simp only [parseValue, hliteral, if_true]
  rfl

theorem spelledAs_print {value : AttributeValue} (h : value.Printable) :
    SpelledAs value value.print := by
  cases value with
  | boolean => exact .inl ⟨rfl, rfl⟩
  | literal text =>
    obtain ⟨parts, hquote, -⟩ := exists_atoms_quote text.toList
    have hspelled := spelledAs_printString parts
    rwa [← hquote, literalText_quote h, String.ofList_toList] at hspelled
  | expression expr escape =>
    obtain ⟨hpiece, hquote, hliteral⟩ := h
    refine .inr ⟨escape, expr.toList, hpiece, by cases escape <;> rfl, fun name => ?_⟩
    unfold parseValue
    split
    · next hnil => exact absurd hnil hpiece.ne_nil
    · next hcons =>
      rw [hcons] at hquote
      exact absurd rfl hquote
    · simp only [hliteral, Bool.false_eq_true, if_false, String.ofList_toList]

theorem cutValue_piece {raw : List Char} (h : IsPiece raw) : cutValue raw = (raw, []) := by
  rw [cutValue, h.trimmed.trimStart_eq, h.no_comma, h.trimmed.trim_eq]

theorem cutValue_piece_comma {raw more : List Char} (h : IsPiece raw)
    (hmore : ∀ c ∈ more.head?, isBlank c = false) :
    cutValue (raw ++ ',' :: ' ' :: more) = (raw, more) := by
  have hfind : findDelimiter? (raw ++ ',' :: ' ' :: more) [','] = some ⟨raw, ',', ' ' :: more⟩ :=
    findFrom_delimiter h.nested.run_start (by decide) (by decide) h.no_comma _
  have hmore' : trimStart (' ' :: more) = more := trimStart_of_head hmore
  rw [cutValue, h.trimmed.trimStart_append h.ne_nil, hfind]
  simp only [h.trimmed.trim_eq, hmore']

/-! ## Attribute lists -/

/-- How an attribute list goes on after the name of an attribute and the blanks behind it. -/
def parseAfterName (whole name : String) :
    List Char → Except Fault (List (String × AttributeValue))
  | [] => .ok [(name, .boolean)]
  | ',' :: more => do
    let entries ← parseEntries whole (trimStart more)
    .ok ((name, .boolean) :: entries)
  | '!' :: '=' :: more => do
    let value ← parseValue name false (cutValue more).1
    let entries ← parseEntries whole (cutValue more).2
    .ok ((name, value) :: entries)
  | '=' :: more => do
    let value ← parseValue name true (cutValue more).1
    let entries ← parseEntries whole (cutValue more).2
    .ok ((name, value) :: entries)
  | _ => .error (.badTag whole .noEqualsSign)

theorem parseEntries_of_name {whole : String} {rest : List Char}
    (h : rest.takeWhile isAttributeChar ≠ []) :
    parseEntries whole rest = parseAfterName whole (String.ofList (rest.takeWhile isAttributeChar))
      (trimStart (rest.dropWhile isAttributeChar)) := by
  have hname : (String.ofList (rest.takeWhile isAttributeChar)).isEmpty = false := by
    rw [← Bool.not_eq_true, String.isEmpty_iff, String.ofList_eq_empty_iff]
    exact h
  have hrest : rest.isEmpty = false := by
    cases rest with
    | nil => exact absurd rfl h
    | cons c rest => rfl
  rw [parseEntries]
  simp only [hname, hrest, Bool.false_eq_true, if_false]
  split
  · next hmatch => rw [hmatch, parseAfterName]
  · next hmatch => rw [hmatch, parseAfterName]
  · next hmatch => rw [hmatch, parseAfterName]
  · next hmatch => rw [hmatch, parseAfterName]
  · rw [parseAfterName] <;> assumption

theorem parseEntries_name {whole name : String} {after : List Char} (hne : name ≠ "")
    (hname : ∀ c ∈ name.toList, isAttributeChar c = true)
    (hafter : ∀ c ∈ after.head?, isAttributeChar c = false ∧ isBlank c = false) :
    parseEntries whole (name.toList ++ after) = parseAfterName whole name after := by
  have hend : ∀ c ∈ after.head?, isAttributeChar c = false := fun c hc => (hafter c hc).1
  have htake := takeWhile_run hname hend
  have hcons : name.toList ≠ [] := by simpa using hne
  rw [parseEntries_of_name (by rwa [htake]), htake, dropWhile_run hname hend,
    trimStart_of_head fun c hc => (hafter c hc).2, String.ofList_toList]

/-- Attributes with a comma and a space between them, `spelling` giving what follows each name. -/
def writeEntries (spelling : AttributeValue → List Char)
    (entries : List (String × AttributeValue)) : List Char :=
  commaSeparated (entries.map fun a => a.1.toList ++ spelling a.2)

theorem isBlank_writeEntries (spelling : AttributeValue → List Char)
    {entries : List (String × AttributeValue)}
    (h : ∀ a ∈ entries, a.1 ≠ "" ∧ ∀ c ∈ a.1.toList, isAttributeChar c = true) :
    ∀ c ∈ (writeEntries spelling entries).head?, isBlank c = false := by
  cases entries with
  | nil => simp [writeEntries, commaSeparated]
  | cons a entries =>
    obtain ⟨hne, hname⟩ := h a List.mem_cons_self
    obtain ⟨c, cs, hcs⟩ := List.exists_cons_of_ne_nil (mt String.toList_eq_nil_iff.mp hne)
    intro d hd
    rw [writeEntries, List.map_cons, hcs, List.cons_append,
      head?_commaSeparated (List.cons_ne_nil _ _)] at hd
    cases hd
    exact isBlank_of_isAttributeChar (hname c (hcs ▸ List.mem_cons_self))

theorem parseAfterName_sign (whole name : String) (escape : Bool) (more : List Char) :
    parseAfterName whole name (sign escape ++ more) = (do
      let value ← parseValue name escape (cutValue more).1
      let entries ← parseEntries whole (cutValue more).2
      .ok ((name, value) :: entries)) := by
  cases escape <;> simp [sign, parseAfterName]

theorem parseAfterName_signed {whole name : String} {value : AttributeValue} {escape : Bool}
    {raw tail more : List Char} {entries : List (String × AttributeValue)}
    (hcut : cutValue (raw ++ tail) = (raw, more)) (hvalue : parseValue name escape raw = .ok value)
    (hmore : parseEntries whole more = .ok entries) :
    parseAfterName whole name (sign escape ++ (raw ++ tail)) = .ok ((name, value) :: entries) := by
  rw [parseAfterName_sign, hcut, hvalue, hmore]
  rfl

theorem isAttributeChar_sign (escape : Bool) (cs : List Char) :
    ∀ c ∈ (sign escape ++ cs).head?, isAttributeChar c = false ∧ isBlank c = false := by
  cases escape <;> rintro c ⟨⟩ <;> decide

theorem isPlain_of_isAttributeChar {c : Char} (h : isAttributeChar c = true) : isPlain c = true :=
  isPlain_of_class (by decide) h

section Lists

variable {spelling : AttributeValue → List Char} {entries : List (String × AttributeValue)}
  (hnames : ∀ a ∈ entries, a.1 ≠ "" ∧ ∀ c ∈ a.1.toList, isAttributeChar c = true)
  (hvalues : ∀ a ∈ entries, SpelledAs a.2 (spelling a.2))

include hnames hvalues

/-- **A list of spelled attributes is read as these attributes.** -/
theorem parseEntries_write (whole : String) :
    parseEntries whole (writeEntries spelling entries) = .ok entries := by
  have hnil : parseEntries whole [] = .ok [] := by simp [parseEntries]
  induction entries with
  | nil => exact hnil
  | cons a entries ih =>
    rw [List.forall_mem_cons] at hnames hvalues
    obtain ⟨⟨hne, hname⟩, hnames⟩ := hnames
    obtain ⟨hvalue, hvalues⟩ := hvalues
    have hrest := ih hnames hvalues
    have hblank := isBlank_writeEntries spelling hnames
    obtain ⟨name, value⟩ := a
    cases entries with
    | nil =>
      rw [writeEntries, List.map_singleton, commaSeparated_singleton]
      rcases hvalue with ⟨rfl, htext⟩ | ⟨escape, raw, hpiece, htext, hparse⟩
      · rw [htext, parseEntries_name hne hname (by simp)]
        rfl
      · have hcut : cutValue (raw ++ []) = (raw, []) := by
          rw [List.append_nil, cutValue_piece hpiece]
        rw [htext, parseEntries_name hne hname (isAttributeChar_sign escape raw)]
        have := parseAfterName_signed hcut (hparse name) hnil
        rwa [List.append_nil] at this
    | cons b entries =>
      have hcons : writeEntries spelling ((name, value) :: b :: entries) =
          name.toList ++
            (spelling value ++ ',' :: ' ' :: writeEntries spelling (b :: entries)) := by
        rw [writeEntries, List.map_cons, List.map_cons, commaSeparated_cons_cons, List.append_assoc]
        rfl
      rw [hcons]
      rcases hvalue with ⟨rfl, htext⟩ | ⟨escape, raw, hpiece, htext, hparse⟩
      · have hafter : ∀ c ∈ (',' :: ' ' :: writeEntries spelling (b :: entries)).head?,
            isAttributeChar c = false ∧ isBlank c = false := by
          rintro c ⟨⟩
          decide
        have htrim : trimStart (' ' :: writeEntries spelling (b :: entries)) =
            writeEntries spelling (b :: entries) := trimStart_of_head hblank
        rw [htext, List.nil_append, parseEntries_name hne hname hafter, parseAfterName, htrim,
          hrest]
        rfl
      · rw [htext, List.append_assoc, parseEntries_name hne hname (isAttributeChar_sign escape _)]
        exact parseAfterName_signed (cutValue_piece_comma hpiece hblank) (hparse name) hrest

theorem wellNested_writeEntries : WellNested (writeEntries spelling entries) := by
  refine wellNested_commaSeparated fun p hp => ?_
  obtain ⟨a, ha, rfl⟩ := List.mem_map.mp hp
  have hname : WellNested a.1.toList :=
    wellNested_of_isPlain fun c hc => isPlain_of_isAttributeChar ((hnames a ha).2 c hc)
  refine hname.append ?_
  rcases hvalues a ha with ⟨-, htext⟩ | ⟨escape, raw, hpiece, htext, -⟩
  · rw [htext]
    decide
  · rw [htext]
    refine WellNested.append ?_ hpiece.nested
    cases escape <;> decide

/-- Such a list in parentheses sets its attributes, and reading goes on behind it. -/
theorem parseAttributeList_write (e : Element) (rest : List Char) :
    parseAttributeList e ('(' :: (writeEntries spelling entries ++ ')' :: rest)) =
      .ok (e.withEntries entries, rest) := by
  have hgroup := closeGroup?_group (wellNested_writeEntries hnames hvalues) rest
  simp only [parseAttributeList, hgroup, parseAttributes,
    trimStart_of_head (isBlank_writeEntries spelling hnames), parseEntries_write hnames hvalues]
  rfl

end Lists

/-! ## Attributes -/

theorem assign_of_not_mem {name : String} {value : AttributeValue}
    {attributes : List (String × AttributeValue)} (h : name ∉ attributes.map (·.1)) :
    assign name value attributes = attributes ++ [(name, value)] := by
  induction attributes with
  | nil => rfl
  | cons a attributes ih =>
    rw [List.map_cons, List.mem_cons, not_or] at h
    have hne : (a.1 == name) = false := by simpa using Ne.symm h.1
    rw [assign, hne, ih h.2]
    rfl

theorem withEntries_nil (e : Element) : e.withEntries [] = e := rfl

theorem withEntries_cons (e : Element) (a : String × AttributeValue)
    (entries : List (String × AttributeValue)) :
    e.withEntries (a :: entries) = (e.setAttribute a.1 a.2).withEntries entries := rfl

theorem withEntries_append (e : Element) (as bs : List (String × AttributeValue)) :
    e.withEntries (as ++ bs) = (e.withEntries as).withEntries bs :=
  List.foldl_append ..

/-- Attributes with new names are added in order. -/
theorem withEntries_attributes {attributes : List (String × AttributeValue)}
    (hnames : ∀ a ∈ attributes, a.1 ≠ "id" ∧ a.1 ≠ "class") (e : Element)
    (hdistinct : ((e.attributes ++ attributes).map (·.1)).Nodup) :
    e.withEntries attributes = { e with attributes := e.attributes ++ attributes } := by
  induction attributes generalizing e with
  | nil => simp [withEntries_nil]
  | cons a attributes ih =>
    rw [List.forall_mem_cons] at hnames
    have hnew : a.1 ∉ e.attributes.map (·.1) := by
      simp only [List.map_append, List.map_cons, List.nodup_append, List.mem_cons] at hdistinct
      exact fun hmem => hdistinct.2.2 _ hmem _ (.inl rfl) rfl
    have hset : e.setAttribute a.1 a.2 = { e with attributes := e.attributes ++ [a] } := by
      simp [setAttribute, hnames.1, assign_of_not_mem hnew]
    rw [withEntries_cons, hset, ih hnames.2 _ (by simpa using hdistinct)]
    simp

theorem withEntries_entries {e : Element} (h : e.Printable) :
    withEntries { tag := e.tag, classes := e.classes } e.entries =
      { e with content := .empty } := by
  have hnames : ∀ a ∈ e.attributes, a.1 ≠ "id" ∧ a.1 ≠ "class" :=
    fun a ha => ⟨(h.names a ha).2.1, (h.names a ha).2.2.1⟩
  obtain ⟨tag, id, classes, explicitClass, attributes, content⟩ := e
  rw [entries, withEntries_append, withEntries_append, withEntries_attributes hnames]
  · cases id <;> cases explicitClass <;> simp [withEntries_cons, withEntries_nil, setAttribute]
  · cases id <;> cases explicitClass <;>
      simpa [withEntries_cons, withEntries_nil, setAttribute] using h.distinct

theorem names_entries {e : Element} (h : e.Printable) :
    ∀ a ∈ e.entries, a.1 ≠ "" ∧ ∀ c ∈ a.1.toList, isAttributeChar c = true := by
  intro a ha
  simp only [entries, List.mem_append, Option.mem_toList, Option.map_eq_some_iff] at ha
  rcases ha with (⟨_, -, rfl⟩ | ⟨_, -, rfl⟩) | ha
  · exact ⟨by simp, isAttributeChar_id⟩
  · exact ⟨by simp, isAttributeChar_class⟩
  · exact ⟨(h.names a ha).1, List.all_eq_true.mp (h.names a ha).2.2.2⟩

/-! ## Lines -/

theorem head_print_content (content : Content) :
    ∀ c ∈ content.print.head?, c ∈ [' ', '=', '!'] := by
  rcases content with _ | t | ⟨expr, _ | _⟩ <;> rintro c ⟨⟩ <;> decide

/-- After the classes comes a character that ends a name and starts none. -/
theorem head_print_list (e : Element) (list : Bool) :
    ∀ c ∈ (e.printList list ++ e.content.print).head?,
      isKeywordChar c = false ∧ isMarker c = false ∧ c ≠ ':' := by
  intro c hc
  have hmem : c ∈ ['(', ' ', '=', '!'] := by
    unfold printList at hc
    split at hc
    · cases hc
      decide
    · exact List.mem_cons_of_mem _ (head_print_content e.content c hc)
  simp only [List.mem_cons, List.not_mem_nil, or_false] at hmem
  rcases hmem with rfl | rfl | rfl | rfl <;> decide

theorem parseAttributeList_print {e : Element} (h : e.Printable) (list : Bool) :
    parseAttributeList { tag := e.tag, classes := e.classes }
        (e.printList list ++ e.content.print) =
      .ok ({ e with content := .empty }, e.content.print) := by
  have hnames := names_entries h
  unfold printList
  split
  · have hvalues : ∀ a ∈ e.entries, SpelledAs a.2 a.2.print := fun a ha =>
      spelledAs_print (h.values a ha)
    rw [List.cons_append, List.append_assoc, List.singleton_append, ← withEntries_entries h]
    exact parseAttributeList_write hnames hvalues _ _
  · next hempty =>
    have hentries : e.entries = [] := by
      rw [Bool.or_eq_true, not_or] at hempty
      simpa using hempty.2
    have hwith := withEntries_entries h
    rw [hentries, withEntries_nil] at hwith
    rw [List.nil_append, hwith]
    unfold parseAttributeList
    split
    · next hcons =>
      have hparen := head_print_content e.content '(' (by rw [hcons]; rfl)
      exact absurd hparen (by decide)
    · rfl

/-- Printed content is read back: without escaping after a `!`, else with it. -/
theorem parseContent_print (tag whole : String) {content : Content} (h : content.Printable) :
    (∃ cs, content.print = '!' :: cs ∧ parseContent tag whole false cs = .ok content) ∨
      content.print.head? ≠ some '!' ∧ parseContent tag whole true content.print = .ok content := by
  cases content with
  | empty => exact .inr ⟨by simp [Content.print], rfl⟩
  | text t =>
    obtain ⟨c, cs, hcs⟩ := List.exists_cons_of_ne_nil (mt String.toList_eq_nil_iff.mp h)
    have ht : t = String.ofList (c :: cs) := by rw [← hcs, String.ofList_toList]
    refine .inr ⟨by simp [Content.print], ?_⟩
    rw [Content.print, hcs, ht]
    rfl
  | expression expr escape =>
    obtain ⟨hne, htrim⟩ := h
    have hblank := htrim.allBlank_eq (mt String.toList_eq_nil_iff.mp hne)
    cases escape with
    | false =>
      refine .inl ⟨'=' :: expr.toList, rfl, ?_⟩
      simp [parseContent, hblank, htrim.trim_eq, String.ofList_toList]
    | true =>
      refine .inr ⟨by simp [Content.print], ?_⟩
      simp [Content.print, parseContent, hblank, htrim.trim_eq, String.ofList_toList]

/-- **The line of an element is read as the element.** -/
theorem parse_printRest {e : Element} (h : e.Printable) (list : Bool) :
    parse e.tag (String.ofList (e.printRest list)) = .ok e := by
  have htag : e.tag.isEmpty = false := by simpa using h.tag
  have hprint : e.classes.flatMap (fun name => '.' :: name.toList) =
      printShorthands (classItems e.classes) := by
    rw [printShorthands, classItems, List.flatMap_map]
  have hshorthands := shorthands_print (isShorthand_classItems h.classes)
    fun c hc => ⟨(head_print_list e list c hc).1, (head_print_list e list c hc).2.1⟩
  have hclasses := foldl_addShorthand_classItems h.classes { tag := e.tag }
  unfold parse
  simp only [htag, Bool.false_eq_true, if_false, String.toList_ofList, printRest, hprint,
    hshorthands, hclasses, List.nil_append, parseAttributeList_print h list, bind, Except.bind]
  split
  · next cs hcs =>
    rcases parseContent_print e.tag _ h.content with ⟨cs', hprint, hparse⟩ | ⟨hhead, -⟩
    · rw [hprint] at hcs
      cases hcs
      rw [hparse]
    · rw [hcs] at hhead
      exact absurd rfl hhead
  · next hne =>
    rcases parseContent_print e.tag _ h.content with ⟨cs', hprint, -⟩ | ⟨-, hparse⟩
    · exact absurd hprint (hne cs')
    · rw [hparse]

/-- What follows the tag does not belong to it. -/
theorem head_printRest (e : Element) (list : Bool) :
    ∀ c ∈ (e.printRest list).head?, isKeywordChar c = false ∧ c ≠ ':' := by
  unfold printRest
  cases e.classes with
  | nil =>
    intro c hc
    obtain ⟨hkeyword, -, hcolon⟩ := head_print_list e list c hc
    exact ⟨hkeyword, hcolon⟩
  | cons name classes =>
    rintro c ⟨⟩
    decide

end Element

end Stencil
