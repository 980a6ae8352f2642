/-
What reading an element line ensures of the element it gives: names are made of the characters of
their class, and no literal value holds an apostrophe, so that each value can be written between
apostrophes (`parse_quotable`). The element is its shorthands and the entries of its list, set one
after the other (`parse_eq_ok`); each of these steps keeps what is ensured.
-/
import Mathlib.Data.List.TakeWhile
import Stencil.Element.Parser

namespace Stencil

open Text

theorem bind_eq_ok {ε α β : Type} {x : Except ε α} {f : α → Except ε β} {b : β} :
    x >>= f = .ok b ↔ ∃ a, x = .ok a ∧ f a = .ok b := by
  cases x with
  | error e => simp [bind, Except.bind]
  | ok a => simp [bind, Except.bind]

/-- A literal value holds no apostrophe. -/
def AttributeValue.Quotable : AttributeValue → Prop
  | .literal text => '\'' ∉ text.toList
  | _ => True

namespace Element

/-- Names and values that can be written in a tag as they are. -/
structure Quotable (e : Element) : Prop where
  id : ∀ value ∈ e.id, value.Quotable
  classes : ∀ name ∈ e.classes, ∀ c ∈ name.toList, isKeywordChar c = true
  explicitClass : ∀ value ∈ e.explicitClass, value.Quotable
  attributes : ∀ a ∈ e.attributes, (∀ c ∈ a.1.toList, isAttributeChar c = true) ∧ a.2.Quotable

/-! ## Shorthands -/

/-- The run and the marked names of a text are made of keyword characters. -/
theorem markedNames_keyword (cs : List Char) :
    (∀ c ∈ (markedNames cs).1, isKeywordChar c = true) ∧
      ∀ name ∈ (markedNames cs).2.1, ∀ c ∈ name.2, isKeywordChar c = true := by
  induction cs with
  | nil => simp [markedNames]
  | cons c cs ih =>
    obtain ⟨ihrun, ihnames⟩ := ih
    unfold markedNames
    split
    · next hc =>
      refine ⟨fun d hd => ?_, ihnames⟩
      rcases List.mem_cons.mp hd with rfl | hd
      · exact hc
      · exact ihrun d hd
    · split
      · refine ⟨by simp, fun name hname => ?_⟩
        rcases List.mem_cons.mp hname with rfl | hname
        · exact ihrun
        · exact ihnames name hname
      · simp

theorem shorthands_keyword (cs : List Char) :
    ∀ name ∈ (shorthands cs).1, ∀ c ∈ name.2, isKeywordChar c = true := by
  unfold shorthands
  split
  · exact (markedNames_keyword cs).2
  · simp

theorem isKeywordChar_apostrophe : isKeywordChar '\'' = false := by decide

theorem Quotable.addShorthand {e : Element} (h : e.Quotable) {name : Char × List Char}
    (hname : ∀ c ∈ name.2, isKeywordChar c = true) : (e.addShorthand name).Quotable := by
  unfold Element.addShorthand
  split
  · exact h
  · split
    · refine { h with id := ?_ }
      rintro value ⟨⟩
      intro hmem
      rw [String.toList_ofList] at hmem
      have := hname _ hmem
      rw [isKeywordChar_apostrophe] at this
      cases this
    · refine { h with classes := fun c hc => ?_ }
      rcases List.mem_append.mp hc with hc | hc
      · exact h.classes c hc
      · obtain rfl := List.mem_singleton.mp hc
        rw [String.toList_ofList]
        exact hname

theorem intercalate_ne_empty {names : List String} (hne : names ≠ []) (h : "" ∉ names) :
    " ".intercalate names ≠ "" := by
  cases names with
  | nil => exact absurd rfl hne
  | cons name names =>
    have hname : name ≠ "" := fun heq => h (heq ▸ List.mem_cons_self)
    by_cases hnames : names = []
    · subst hnames
      simpa using hname
    · rw [String.intercalate_cons_of_ne_nil hnames]
      intro hempty
      have := congrArg String.toList hempty
      simp at this

/-! ## Attributes -/

/-- The text of a string value holds no apostrophe. -/
theorem apostrophe_not_mem_literalText (cs : List Char) : '\'' ∉ literalText cs := by
  unfold literalText
  intro h
  obtain ⟨c, -, hc⟩ := List.mem_flatMap.mp h
  split at hc
  · revert hc
    decide
  · next hne =>
    obtain rfl := List.mem_singleton.mp hc
    exact hne rfl

theorem parseValue_quotable {name : String} {escape : Bool} {raw : List Char}
    {value : AttributeValue} (h : parseValue name escape raw = .ok value) : value.Quotable := by
  unfold parseValue at h
  split at h
  · cases h
  · cases h
  · split at h
    · cases h
      simp only [AttributeValue.Quotable, String.toList_ofList]
      exact apostrophe_not_mem_literalText raw
    · cases h
      trivial

/-- The name of an entry is made of attribute characters, and its value can be quoted. -/
def EntryQuotable (entry : String × AttributeValue) : Prop :=
  (∀ c ∈ entry.1.toList, isAttributeChar c = true) ∧ entry.2.Quotable

theorem isAttributeChar_id : ∀ c ∈ "id".toList, isAttributeChar c = true :=
  List.all_eq_true.mp (by decide)

theorem isAttributeChar_class : ∀ c ∈ "class".toList, isAttributeChar c = true :=
  List.all_eq_true.mp (by decide)

theorem takeWhile_attribute (cs : List Char) :
    ∀ c ∈ (String.ofList (cs.takeWhile isAttributeChar)).toList, isAttributeChar c = true := by
  intro c hc
  rw [String.toList_ofList] at hc
  exact List.mem_takeWhile_imp hc

theorem forall_entry_cons {p : String × AttributeValue → Prop} {entry : String × AttributeValue}
    {entries : List (String × AttributeValue)} (h : p entry) (hs : ∀ e ∈ entries, p e) :
    ∀ e ∈ entry :: entries, p e := by
  intro e he
  rcases List.mem_cons.mp he with rfl | he
  · exact h
  · exact hs e he

theorem parseEntries_quotable {whole : String} {cs : List Char}
    {entries : List (String × AttributeValue)} (h : parseEntries whole cs = .ok entries) :
    ∀ entry ∈ entries, EntryQuotable entry := by
  fun_induction parseEntries whole cs generalizing entries with
  | case1 =>
    cases h
    simp
  | case2 | case7 => cases h
  | case3 =>
    cases h
    exact forall_entry_cons ⟨takeWhile_attribute _, trivial⟩ (by simp)
  | case4 =>
    rename_i ih
    obtain ⟨rest, hrest, h⟩ := bind_eq_ok.mp h
    cases h
    exact forall_entry_cons ⟨takeWhile_attribute _, trivial⟩ (ih hrest)
  | case5 | case6 =>
    rename_i ih
    obtain ⟨value, hvalue, h⟩ := bind_eq_ok.mp h
    obtain ⟨rest, hrest, h⟩ := bind_eq_ok.mp h
    cases h
    exact forall_entry_cons ⟨takeWhile_attribute _, parseValue_quotable hvalue⟩ (ih hrest)

theorem mem_assign {name : String} {value : AttributeValue} {a : String × AttributeValue} :
    ∀ {attributes : List (String × AttributeValue)}, a ∈ assign name value attributes →
      a = (name, value) ∨ a ∈ attributes
  | [], h => .inl (by simpa [assign] using h)
  | (n, v) :: rest, h => by
    unfold assign at h
    split at h
    · next hn =>
      obtain rfl : n = name := by simpa using hn
      rcases List.mem_cons.mp h with rfl | h
      · exact .inl rfl
      · exact .inr (List.mem_cons_of_mem _ h)
    · rcases List.mem_cons.mp h with rfl | h
      · exact .inr List.mem_cons_self
      · rcases mem_assign h with h | h
        · exact .inl h
        · exact .inr (List.mem_cons_of_mem _ h)

theorem Quotable.setAttribute {e : Element} (h : e.Quotable) {name : String}
    {value : AttributeValue} (hentry : EntryQuotable (name, value)) :
    (e.setAttribute name value).Quotable := by
  unfold Element.setAttribute
  split
  · refine { h with id := ?_ }
    rintro v ⟨⟩
    exact hentry.2
  · split
    · refine { h with explicitClass := ?_ }
      rintro v ⟨⟩
      exact hentry.2
    · refine { h with attributes := fun a ha => ?_ }
      rcases mem_assign ha with rfl | ha
      · exact hentry
      · exact h.attributes a ha

/-! ## Whole elements -/

/-- The element with the entries of a list set one after the other. -/
def withEntries (e : Element) (entries : List (String × AttributeValue)) : Element :=
  entries.foldl (fun e (name, value) => e.setAttribute name value) e

/-- An element that was read is made of its shorthands, of the entries of a list, if it has one,
and of its content. -/
theorem parse_eq_ok {tag rest : String} {e : Element} (h : parse tag rest = .ok e) :
    tag ≠ "" ∧ ∃ entries content,
      (entries = [] ∨ ∃ whole cs, parseEntries whole cs = .ok entries) ∧
        e = { ((shorthands rest.toList).1.foldl addShorthand { tag }).withEntries entries with
              content } := by
  unfold parse at h
  dsimp only at h
  split at h
  · cases h
  next htag =>
  refine ⟨by simpa using htag, ?_⟩
  obtain ⟨⟨e', cs⟩, hlist, h⟩ := bind_eq_ok.mp h
  obtain ⟨content, rfl⟩ : ∃ content, e = { e' with content } := by
    split at h
    all_goals
      obtain ⟨content, -, h⟩ := bind_eq_ok.mp h
      cases h
      exact ⟨content, rfl⟩
  unfold parseAttributeList at hlist
  split at hlist
  · split at hlist
    · cases hlist
    · obtain ⟨e'', hattrs, hlist⟩ := bind_eq_ok.mp hlist
      cases hlist
      obtain ⟨entries, hentries, hattrs⟩ := bind_eq_ok.mp hattrs
      cases hattrs
      exact ⟨entries, content, .inr ⟨_, _, hentries⟩, rfl⟩
  · cases hlist
    exact ⟨[], content, .inl rfl, rfl⟩

theorem addShorthand_tag (e : Element) (name : Char × List Char) :
    (e.addShorthand name).tag = e.tag := by
  unfold addShorthand
  split
  · rfl
  · split <;> rfl

theorem setAttribute_tag (e : Element) (name : String) (value : AttributeValue) :
    (e.setAttribute name value).tag = e.tag := by
  unfold setAttribute
  split
  · rfl
  · split <;> rfl

theorem withEntries_tag (e : Element) (entries : List (String × AttributeValue)) :
    (e.withEntries entries).tag = e.tag := by
  induction entries generalizing e with
  | nil => rfl
  | cons entry entries ih => exact (ih _).trans (setAttribute_tag e _ _)

theorem foldl_addShorthand_tag (e : Element) (names : List (Char × List Char)) :
    (names.foldl addShorthand e).tag = e.tag := by
  induction names generalizing e with
  | nil => rfl
  | cons name names ih => exact (ih _).trans (addShorthand_tag e name)

/-- The element has the tag of its line. -/
theorem parse_tag {tag rest : String} {e : Element} (h : parse tag rest = .ok e) :
    e.tag = tag := by
  obtain ⟨-, entries, content, -, rfl⟩ := parse_eq_ok h
  exact (withEntries_tag _ entries).trans (foldl_addShorthand_tag _ _)

theorem Quotable.withEntries {e : Element} (h : e.Quotable)
    {entries : List (String × AttributeValue)} (hs : ∀ entry ∈ entries, EntryQuotable entry) :
    (e.withEntries entries).Quotable := by
  induction entries generalizing e with
  | nil => exact h
  | cons entry entries ih =>
    exact ih (h.setAttribute (hs entry List.mem_cons_self))
      fun a ha => hs a (List.mem_cons_of_mem _ ha)

theorem Quotable.foldl_addShorthand {e : Element} (h : e.Quotable)
    {names : List (Char × List Char)}
    (hs : ∀ name ∈ names, ∀ c ∈ name.2, isKeywordChar c = true) :
    (names.foldl Element.addShorthand e).Quotable := by
  induction names generalizing e with
  | nil => exact h
  | cons name names ih =>
    exact ih (h.addShorthand (hs name List.mem_cons_self))
      fun n hn => hs n (List.mem_cons_of_mem _ hn)

/-- **An element that was read can be quoted.** -/
theorem parse_quotable {tag rest : String} {e : Element} (h : parse tag rest = .ok e) :
    e.Quotable := by
  obtain ⟨-, entries, content, hentries, rfl⟩ := parse_eq_ok h
  have hbare : ({ tag } : Element).Quotable := ⟨by simp, by simp, by simp, by simp⟩
  have hnames := hbare.foldl_addShorthand (shorthands_keyword rest.toList)
  have hall : ∀ entry ∈ entries, EntryQuotable entry := by
    rcases hentries with rfl | ⟨whole, cs, hentries⟩
    · simp
    · exact parseEntries_quotable hentries
  exact { hnames.withEntries hall with }

end Element

end Stencil
