/-
Elements that are read back from their own lines. The line of an element that can be printed is read
as the element. The other way round, whatever is read from a line can be printed, as long as the
expressions of its attributes are well-nested: names are made of the right characters and stand
once, texts hold no apostrophe, and an expression is trimmed, ends at the first top-level comma and
is no string.

`parse_printRest_iff`: so the elements that can be printed are exactly those that their lines are
read as, among those with well-nested expressions.
-/
import Stencil.Proofs.Element.Attributes
import Stencil.Proofs.Element.Expressions
import Stencil.Proofs.Element.Printing

namespace Stencil

open Text Nesting

/-- If the value is an expression, it is well-nested. -/
def AttributeValue.Nested : AttributeValue → Prop
  | .expression expr _ => WellNested expr.toList
  | _ => True

/-- A value that nothing but its quotes and its nesting keeps from being printed. -/
def AttributeValue.Read (value : AttributeValue) : Prop :=
  value.Quotable → value.Nested → value.Printable

theorem AttributeValue.Printable.nested {value : AttributeValue} (h : value.Printable) :
    value.Nested := by
  cases value with
  | boolean | literal => trivial
  | expression expr escape => exact h.1.nested

/-! ## Values -/

namespace Nesting

variable {s : Nesting} {delimiters as bs cs : List Char}

theorem findFrom_left (h : s.findFrom delimiters (as ++ bs) = none) :
    s.findFrom delimiters as = none := by
  induction as generalizing s with
  | nil => rfl
  | cons a as ih =>
    simp only [List.cons_append, findFrom] at h ⊢
    split at h
    · cases h
    · next hnot => rw [if_neg hnot, ih (Option.map_eq_none_iff.mp h), Option.map_none]

/-- There is no delimiter before the first one. -/
theorem findFrom_before {k : Cut} (h : s.findFrom delimiters cs = some k) :
    s.findFrom delimiters k.before = none := by
  induction cs generalizing s k with
  | nil => cases h
  | cons c cs ih =>
    simp only [findFrom] at h
    split at h
    · cases h
      rfl
    · next hnot =>
      obtain ⟨k', hk, rfl⟩ := Option.map_eq_some_iff.mp h
      rw [findFrom, if_neg hnot, ih hk, Option.map_none]

theorem findDelimiter?_trimEnd (h : findDelimiter? cs delimiters = none) :
    findDelimiter? (trimEnd cs) delimiters = none := by
  obtain ⟨rest, hrest⟩ := trimEnd_initial cs
  rw [← hrest] at h
  exact findFrom_left h

end Nesting

namespace Element

/-- A value that was cut has no top-level comma. -/
theorem cutValue_no_comma (cs : List Char) : findDelimiter? (cutValue cs).1 [','] = none := by
  unfold cutValue
  split
  · next k hk =>
    have hcut := eq_of_findFrom hk
    have hblank : ∀ c ∈ k.before.head?, isBlank c = false := fun c hc =>
      head?_dropWhile_of_mem c (mem_head?_of_initial ⟨_, hcut.symm⟩ c hc)
    rw [trim, trimStart_of_head hblank]
    exact findDelimiter?_trimEnd (findFrom_before hk)
  · next hnone => exact findDelimiter?_trimEnd hnone

theorem read_of_parseValue {name : String} {escape : Bool} {cs : List Char}
    {value : AttributeValue} (h : parseValue name escape (cutValue cs).1 = .ok value) :
    value.Read := by
  intro _ hnested
  have hcomma := cutValue_no_comma cs
  obtain ⟨raw, hraw⟩ := cutValue_eq_trim cs
  have htrimmed : Trimmed (cutValue cs).1 := hraw ▸ trimmed_trim raw
  have hquotable := parseValue_quotable h
  unfold parseValue at h
  split at h
  · cases h
  · cases h
  · next hnil hquote =>
    split at h
    · cases h
      exact hquotable
    · next hliteral =>
      cases h
      simp only [AttributeValue.Nested, AttributeValue.Printable, String.toList_ofList] at hnested ⊢
      refine ⟨⟨htrimmed, hnil, hcomma, hnested⟩, fun hhead => ?_, by simpa using hliteral⟩
      obtain ⟨rest, hrest⟩ := List.head?_eq_some_iff.mp hhead
      exact hquote rest hrest

theorem read_of_parseEntries {whole : String} {cs : List Char}
    {entries : List (String × AttributeValue)} (h : parseEntries whole cs = .ok entries) :
    ∀ entry ∈ entries, entry.2.Read := by
  fun_induction parseEntries whole cs generalizing entries with
  | case1 =>
    cases h
    simp
  | case2 | case7 => cases h
  | case3 =>
    cases h
    exact forall_entry_cons (fun _ _ => trivial) (by simp)
  | case4 =>
    rename_i ih
    obtain ⟨rest, hrest, h⟩ := bind_eq_ok.mp h
    cases h
    exact forall_entry_cons (fun _ _ => trivial) (ih hrest)
  | case5 | case6 =>
    rename_i ih
    obtain ⟨value, hvalue, h⟩ := bind_eq_ok.mp h
    obtain ⟨rest, hrest, h⟩ := bind_eq_ok.mp h
    cases h
    exact forall_entry_cons (read_of_parseValue hvalue) (ih hrest)

/-! ## The values of an element -/

section

variable {p : AttributeValue → Prop} {e : Element}

theorem forall_entries_iff : (∀ a ∈ e.entries, p a.2) ↔
    (∀ v ∈ e.id, p v) ∧ (∀ v ∈ e.explicitClass, p v) ∧ ∀ a ∈ e.attributes, p a.2 := by
  simp only [entries, List.mem_append, Option.mem_toList, Option.mem_def, Option.map_eq_some_iff]
  constructor
  · intro h
    exact ⟨fun v hv => h ("id", v) (.inl (.inl ⟨v, hv, rfl⟩)),
      fun v hv => h ("class", v) (.inl (.inr ⟨v, hv, rfl⟩)), fun a ha => h a (.inr ha)⟩
  · rintro ⟨hid, hclass, hattributes⟩ a ((⟨v, hv, rfl⟩ | ⟨v, hv, rfl⟩) | ha)
    · exact hid v hv
    · exact hclass v hv
    · exact hattributes a ha

theorem forall_setAttribute (h : ∀ a ∈ e.entries, p a.2) {name : String} {value : AttributeValue}
    (hvalue : p value) : ∀ a ∈ (e.setAttribute name value).entries, p a.2 := by
  rw [forall_entries_iff] at h ⊢
  obtain ⟨hid, hclass, hattributes⟩ := h
  unfold setAttribute
  split
  · exact ⟨by rintro v ⟨⟩; exact hvalue, hclass, hattributes⟩
  · split
    · exact ⟨hid, by rintro v ⟨⟩; exact hvalue, hattributes⟩
    · refine ⟨hid, hclass, fun a ha => ?_⟩
      rcases mem_assign ha with rfl | ha
      · exact hvalue
      · exact hattributes a ha

theorem forall_withEntries (h : ∀ a ∈ e.entries, p a.2) {entries : List (String × AttributeValue)}
    (hs : ∀ entry ∈ entries, p entry.2) : ∀ a ∈ (e.withEntries entries).entries, p a.2 := by
  induction entries generalizing e with
  | nil => exact h
  | cons entry entries ih =>
    rw [List.forall_mem_cons] at hs
    exact ih (forall_setAttribute h hs.1) hs.2

theorem forall_addShorthands (hliteral : ∀ text, p (.literal text)) (h : ∀ a ∈ e.entries, p a.2)
    (names : List (Char × List Char)) : ∀ a ∈ (names.foldl addShorthand e).entries, p a.2 := by
  induction names generalizing e with
  | nil => exact h
  | cons name names ih =>
    refine ih ?_
    rw [forall_entries_iff] at h ⊢
    unfold addShorthand
    split
    · exact h
    · split
      · exact ⟨by rintro v ⟨⟩; exact hliteral _, h.2⟩
      · exact h

end

theorem forall_quotable {e : Element} (h : e.Quotable) : ∀ a ∈ e.entries, a.2.Quotable :=
  forall_entries_iff.mpr ⟨h.id, h.explicitClass, fun a ha => (h.attributes a ha).2⟩

theorem printable_values_of_parse {tag rest : String} {e : Element} (h : parse tag rest = .ok e)
    (hnested : ∀ a ∈ e.entries, a.2.Nested) : ∀ a ∈ e.entries, a.2.Printable := by
  have hquotable := forall_quotable (parse_quotable h)
  obtain ⟨-, entries, content, hentries, heq⟩ := parse_eq_ok h
  have hall : ∀ entry ∈ entries, entry.2.Read := by
    rcases hentries with rfl | ⟨whole, cs, hentries⟩
    · simp
    · exact read_of_parseEntries hentries
  -- A shorthand is a text, so only the entries of the list matter.
  have hnames := forall_addShorthands (p := AttributeValue.Read) (e := { tag })
    (fun _ hliteral _ => hliteral) (by simp [Element.entries]) (shorthands rest.toList).1
  have hread := forall_withEntries hnames hall
  intro a ha
  have hmem := ha
  rw [heq] at hmem
  exact hread a hmem (hquotable a ha) (hnested a ha)

/-! ## Content -/

theorem printable_of_parseContent {tag whole : String} {escape : Bool} {cs : List Char}
    {content : Content} (h : parseContent tag whole escape cs = .ok content) :
    content.Printable := by
  unfold parseContent at h
  split at h
  · cases h
    trivial
  · next expr =>
    split at h
    · cases h
    · next hblank =>
      cases h
      have hne := trim_ne_nil (by simpa using hblank : allBlank expr = false)
      refine ⟨fun hempty => hne (String.ofList_eq_empty_iff.mp hempty), ?_⟩
      rw [String.toList_ofList]
      exact trimmed_trim expr
  · cases h
    trivial
  · next text hspace =>
    cases h
    intro hempty
    exact hspace (String.ofList_eq_empty_iff.mp hempty)
  · cases h

theorem printable_content_of_parse {tag rest : String} {e : Element} (h : parse tag rest = .ok e) :
    e.content.Printable := by
  unfold parse at h
  dsimp only at h
  split at h
  · cases h
  obtain ⟨⟨e', cs⟩, -, h⟩ := bind_eq_ok.mp h
  split at h
  all_goals
    obtain ⟨content, hcontent, h⟩ := bind_eq_ok.mp h
    cases h
    exact printable_of_parseContent hcontent

/-- **What is read can be printed**, if the expressions of its attributes are well-nested. -/
theorem printable_of_parse {tag rest : String} {e : Element} (h : parse tag rest = .ok e)
    (hnested : ∀ a ∈ e.entries, a.2.Nested) : e.Printable := by
  have hquotable := parse_quotable h
  have hdistinct := parse_distinct h
  refine ⟨?_, ?_, ?_, hdistinct.nodup, printable_values_of_parse h hnested,
    printable_content_of_parse h⟩
  · rw [parse_tag h]
    exact (parse_eq_ok h).1
  · intro name hname
    exact ⟨fun hempty => hdistinct.classes (hempty ▸ hname),
      List.all_eq_true.mpr (hquotable.classes name hname)⟩
  · intro a ha
    obtain ⟨hne, hid, hclass⟩ := hdistinct.names a.1 (List.mem_map_of_mem ha)
    exact ⟨hne, hid, hclass, List.all_eq_true.mpr (hquotable.attributes a ha).1⟩

/-- **An element can be printed exactly if its line is read as the element again**, provided that
the expressions of its attributes are well-nested. `list` asks for parentheses even if there are no
attributes. -/
theorem parse_printRest_iff (e : Element) (list : Bool) :
    e.Printable ↔ (∀ a ∈ e.entries, a.2.Nested) ∧
      parse e.tag (String.ofList (e.printRest list)) = .ok e := by
  constructor
  · intro h
    exact ⟨fun a ha => (h.values a ha).nested, parse_printRest h list⟩
  · rintro ⟨hnested, hparse⟩
    exact printable_of_parse hparse hnested

end Element

end Stencil
