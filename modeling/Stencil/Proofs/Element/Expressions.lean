/-
The expressions of an element. An element holds expressions as values of its attributes and as its
content. Each of them was read from the text behind the tag name (`parse_readFrom`): it is not
empty, has no blanks around it, is made of characters of that text, and is written as it is only if
there is an exclamation mark in the text.
-/
import Stencil.Proofs.Element.Quoting
import Stencil.Proofs.Nesting.Cuts
import Stencil.Proofs.Text.Trimmed

namespace Stencil

open Text

/-- What reading an expression from a text ensures. -/
structure ReadFrom (source : List Char) (expr : String) (escape : Bool) : Prop where
  ne_empty : expr ≠ ""
  trimmed : Trimmed expr.toList
  subset : expr.toList ⊆ source
  marked : escape = false → '!' ∈ source

theorem ReadFrom.mono {cs ds : List Char} {expr : String} {escape : Bool}
    (h : ReadFrom cs expr escape) (hsub : cs ⊆ ds) : ReadFrom ds expr escape where
  ne_empty := h.ne_empty
  trimmed := h.trimmed
  subset := List.Subset.trans h.subset hsub
  marked he := hsub (h.marked he)

/-- What is left of a text that is not blank, when it is trimmed. -/
theorem readFrom_trim (cs : List Char) {source : List Char} {escape : Bool} (hne : trim cs ≠ [])
    (hsub : cs ⊆ source) (hmark : escape = false → '!' ∈ source) :
    ReadFrom source (String.ofList (trim cs)) escape where
  ne_empty hempty := hne (by rw [← String.toList_ofList (l := trim cs), hempty]; rfl)
  trimmed := by
    rw [String.toList_ofList]
    exact trimmed_trim cs
  subset := by
    rw [String.toList_ofList]
    exact List.Subset.trans (trim_subset cs) hsub
  marked := hmark

/-- If the value is an expression, it was read from the text. -/
def AttributeValue.ReadFrom (source : List Char) : AttributeValue → Prop
  | .expression expr escape => Stencil.ReadFrom source expr escape
  | _ => True

/-- If the content is an expression, it was read from the text. -/
def Content.ReadFrom (source : List Char) : Content → Prop
  | .expression expr escape => Stencil.ReadFrom source expr escape
  | _ => True

theorem AttributeValue.ReadFrom.mono {cs ds : List Char} {value : AttributeValue}
    (h : value.ReadFrom cs) (hsub : cs ⊆ ds) : value.ReadFrom ds := by
  cases value with
  | boolean | literal => trivial
  | expression expr escape => exact Stencil.ReadFrom.mono h hsub

namespace Element

/-- The expressions of an element were read from the text. -/
structure ReadFrom (source : List Char) (e : Element) : Prop where
  id : ∀ value ∈ e.id, value.ReadFrom source
  explicitClass : ∀ value ∈ e.explicitClass, value.ReadFrom source
  attributes : ∀ a ∈ e.attributes, a.2.ReadFrom source
  content : e.content.ReadFrom source

/-! ## Attributes -/

theorem cutValue_subset (cs : List Char) : (cutValue cs).1 ⊆ cs ∧ (cutValue cs).2 ⊆ cs := by
  unfold cutValue
  split
  · next k hk =>
    have hcs : k.before ++ k.delimiter :: k.after ⊆ cs := by
      rw [← Nesting.eq_of_findFrom hk]
      exact trimStart_subset cs
    constructor
    · intro c hc
      exact hcs (List.mem_append_left _ (trim_subset _ hc))
    · intro c hc
      exact hcs (List.mem_append_right _ (List.mem_cons_of_mem _ (trimStart_subset _ hc)))
  · exact ⟨trim_subset cs, by simp⟩

theorem cutValue_eq_trim (cs : List Char) : ∃ raw, (cutValue cs).1 = trim raw := by
  unfold cutValue
  split
  · exact ⟨_, rfl⟩
  · exact ⟨_, rfl⟩

theorem parseValue_readFrom {name : String} {escape : Bool} {cs source : List Char}
    {value : AttributeValue} (h : parseValue name escape (cutValue cs).1 = .ok value)
    (hsub : cs ⊆ source) (hmark : escape = false → '!' ∈ source) : value.ReadFrom source := by
  have hraw : (cutValue cs).1 ≠ [] →
      Stencil.ReadFrom source (String.ofList (cutValue cs).1) escape := by
    intro hne
    have hcut := List.Subset.trans (cutValue_subset cs).1 hsub
    obtain ⟨raw, heq⟩ := cutValue_eq_trim cs
    have htrim : trim (cutValue cs).1 = (cutValue cs).1 := by
      rw [heq]
      exact trimmed_trim raw
    have := readFrom_trim (cutValue cs).1 (by rwa [htrim]) hcut hmark
    rwa [htrim] at this
  unfold parseValue at h
  split at h
  · cases h
  · cases h
  · next hne _ =>
    split at h
    · cases h
      trivial
    · cases h
      exact hraw fun hnil => hne hnil

theorem parseEntries_readFrom {whole : String} {cs : List Char}
    {entries : List (String × AttributeValue)} (h : parseEntries whole cs = .ok entries) :
    ∀ entry ∈ entries, entry.2.ReadFrom cs := by
  -- What follows the name of an entry, its sign included, is part of the list.
  have hafter : ∀ rest : List Char, trimStart (rest.dropWhile isAttributeChar) ⊆ rest :=
    fun rest _ hc => (List.dropWhile_suffix isAttributeChar).subset (trimStart_subset _ hc)
  fun_induction parseEntries whole cs generalizing entries with
  | case1 =>
    cases h
    simp
  | case2 | case7 => cases h
  | case3 =>
    cases h
    exact forall_entry_cons trivial (by simp)
  | case4 rest _ _ _ more hmore =>
    rename_i ih
    obtain ⟨others, hothers, h⟩ := bind_eq_ok.mp h
    cases h
    have hrest := hafter rest
    rw [hmore, List.cons_subset] at hrest
    refine forall_entry_cons trivial fun entry he => ?_
    exact (ih hothers entry he).mono (List.Subset.trans (trimStart_subset more) hrest.2)
  | case5 rest _ _ _ more hmore =>
    rename_i ih
    obtain ⟨value, hvalue, h⟩ := bind_eq_ok.mp h
    obtain ⟨others, hothers, h⟩ := bind_eq_ok.mp h
    cases h
    have hrest := hafter rest
    rw [hmore, List.cons_subset, List.cons_subset] at hrest
    obtain ⟨hmark, -, hmore⟩ := hrest
    refine forall_entry_cons (parseValue_readFrom hvalue hmore fun _ => hmark) fun entry he => ?_
    exact (ih hothers entry he).mono (List.Subset.trans (cutValue_subset more).2 hmore)
  | case6 rest _ _ _ more hmore =>
    rename_i ih
    obtain ⟨value, hvalue, h⟩ := bind_eq_ok.mp h
    obtain ⟨others, hothers, h⟩ := bind_eq_ok.mp h
    cases h
    have hrest := hafter rest
    rw [hmore, List.cons_subset] at hrest
    refine forall_entry_cons (parseValue_readFrom hvalue hrest.2 (by simp)) fun entry he => ?_
    exact (ih hothers entry he).mono (List.Subset.trans (cutValue_subset more).2 hrest.2)

/-! ## Elements -/

variable {source : List Char} {e : Element}

theorem ReadFrom.addShorthand (h : e.ReadFrom source) (name : Char × List Char) :
    (e.addShorthand name).ReadFrom source := by
  unfold Element.addShorthand
  split
  · exact h
  · split
    · refine { h with id := ?_ }
      intro value hvalue
      cases hvalue
      trivial
    · exact { h with }

theorem ReadFrom.foldl_addShorthand (h : e.ReadFrom source) (names : List (Char × List Char)) :
    (names.foldl Element.addShorthand e).ReadFrom source := by
  induction names generalizing e with
  | nil => exact h
  | cons name names ih => exact ih (h.addShorthand name)

theorem ReadFrom.setAttribute (h : e.ReadFrom source) {name : String} {value : AttributeValue}
    (hvalue : value.ReadFrom source) : (e.setAttribute name value).ReadFrom source := by
  unfold Element.setAttribute
  split
  · refine { h with id := ?_ }
    intro v hv
    cases hv
    exact hvalue
  · split
    · refine { h with explicitClass := ?_ }
      intro v hv
      cases hv
      exact hvalue
    · refine { h with attributes := ?_ }
      intro a ha
      rcases mem_assign ha with rfl | ha
      · exact hvalue
      · exact h.attributes a ha

theorem ReadFrom.withEntries (h : e.ReadFrom source) {entries : List (String × AttributeValue)}
    (hs : ∀ entry ∈ entries, entry.2.ReadFrom source) :
    (e.withEntries entries).ReadFrom source := by
  induction entries generalizing e with
  | nil => exact h
  | cons entry entries ih =>
    rw [List.forall_mem_cons] at hs
    exact ih (h.setAttribute hs.1) hs.2

theorem shorthands_subset (cs : List Char) : (shorthands cs).2 ⊆ cs := by
  have hmarked : ∀ cs : List Char, (markedNames cs).2.2 ⊆ cs := by
    intro cs
    induction cs with
    | nil => simp [markedNames]
    | cons c cs ih =>
      have hih : (markedNames cs).2.2 ⊆ c :: cs :=
        List.Subset.trans ih (List.subset_cons_self c cs)
      unfold markedNames
      split
      · exact hih
      · split
        · exact hih
        · exact List.Subset.refl _
  unfold shorthands
  split
  · exact hmarked cs
  · exact List.Subset.refl _

theorem parseAttributeList_readFrom {cs after : List Char} {e' : Element}
    (h : e.parseAttributeList cs = .ok (e', after)) (he : e.ReadFrom source) (hsub : cs ⊆ source) :
    e'.ReadFrom source ∧ after ⊆ source := by
  unfold parseAttributeList at h
  split at h
  · split at h
    · cases h
    · next group hgroup =>
      obtain ⟨e'', hattributes, h⟩ := bind_eq_ok.mp h
      cases h
      obtain ⟨entries, hentries, hattributes⟩ := bind_eq_ok.mp hattributes
      cases hattributes
      have hlist : trimStart group.before ⊆ source :=
        List.Subset.trans (trimStart_subset _)
          (List.Subset.trans (Nesting.before_subset_of_closeGroup? hgroup) hsub)
      refine ⟨he.withEntries fun entry hentry => ?_, ?_⟩
      · exact (parseEntries_readFrom hentries entry hentry).mono hlist
      · exact List.Subset.trans (Nesting.after_subset_of_closeGroup? hgroup) hsub
  · cases h
    exact ⟨he, hsub⟩

theorem parseContent_readFrom {tag whole : String} {escape : Bool} {cs : List Char}
    {content : Content} (h : parseContent tag whole escape cs = .ok content) (hsub : cs ⊆ source)
    (hmark : escape = false → '!' ∈ source) : content.ReadFrom source := by
  unfold parseContent at h
  split at h
  · cases h
    trivial
  · next expr =>
    split at h
    · cases h
    · next hblank =>
      cases h
      rw [List.cons_subset] at hsub
      exact readFrom_trim expr (trim_ne_nil (by simpa using hblank)) hsub.2 hmark
  · cases h
    trivial
  · cases h
    trivial
  · cases h

/-- **Every expression of an element was read from its line.** -/
theorem parse_readFrom {tag rest : String} (h : parse tag rest = .ok e) :
    e.ReadFrom rest.toList := by
  unfold parse at h
  dsimp only at h
  split at h
  · cases h
  obtain ⟨⟨e', cs⟩, hlist, h⟩ := bind_eq_ok.mp h
  have hbare : ({ tag } : Element).ReadFrom rest.toList := ⟨by simp, by simp, by simp, trivial⟩
  obtain ⟨he', hcs⟩ := parseAttributeList_readFrom hlist
    (hbare.foldl_addShorthand (shorthands rest.toList).1) (shorthands_subset rest.toList)
  split at h
  · next heq =>
    obtain ⟨content, hcontent, h⟩ := bind_eq_ok.mp h
    cases h
    rw [show cs = _ from heq, List.cons_subset] at hcs
    exact { he' with content := parseContent_readFrom hcontent hcs.2 fun _ => hcs.1 }
  · obtain ⟨content, hcontent, h⟩ := bind_eq_ok.mp h
    cases h
    exact { he' with content := parseContent_readFrom hcontent hcs (by simp) }

/-- The element holds the expression, as a value of an attribute or as its content. -/
inductive Holds (e : Element) (expr : String) (escape : Bool) : Prop
  | id : e.id = some (.expression expr escape) → Holds e expr escape
  | explicitClass : e.explicitClass = some (.expression expr escape) → Holds e expr escape
  | entry (name : String) : (name, .expression expr escape) ∈ e.attributes →
      Holds e expr escape
  | content : e.content = .expression expr escape → Holds e expr escape

theorem ReadFrom.of_holds {expr : String} {escape : Bool} (h : e.ReadFrom source)
    (hholds : e.Holds expr escape) : Stencil.ReadFrom source expr escape := by
  cases hholds with
  | id hid => exact h.id _ hid
  | explicitClass hclass => exact h.explicitClass _ hclass
  | entry name hmem => exact h.attributes _ hmem
  | content hcontent =>
    have := h.content
    rwa [hcontent] at this

end Element

end Stencil
