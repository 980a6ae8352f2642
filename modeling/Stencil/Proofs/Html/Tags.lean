/-
Reading the tags of an HTML text and checking that they nest. A text is read to its end as doctypes,
opening tags, closing tags and characters other than `<`; in an opening tag, what stands between
apostrophes is skipped. Tags nest when each closing tag has the name of the last one that is still
open, and none is open in the end; void tags are neither opened nor closed.

Reading goes on where it stopped (`tags_append`), and tags that nest by themselves leave the open
tags around them alone (`nested_append`), so balanced texts can be put side by side and wrapped in
a pair of tags.
-/
import Stencil.Options
import Stencil.Proofs.Text.Runs

namespace Stencil.Html

open Text

inductive Tag where
  | doctype
  | opening (name : String)
  | closing (name : String)
  deriving DecidableEq, Repr

/-- What follows the `>` that ends a tag. `quoted` tells whether the text starts between
apostrophes; outside them no tag may begin. -/
def afterTag (quoted : Bool) : List Char → Option (List Char)
  | [] => none
  | c :: cs =>
    if c == '\'' then afterTag (!quoted) cs
    else if quoted then afterTag quoted cs
    else if c == '>' then some cs
    else if c == '<' then none
    else afterTag quoted cs

/-- The name of a tag, and what follows it. -/
def readName (cs : List Char) : Option (String × List Char) :=
  let name := cs.takeWhile isKeywordChar
  if name.isEmpty then none else some (String.ofList name, cs.dropWhile isKeywordChar)

/-- The tag that follows a `<`, and what follows the tag. -/
def readTag : List Char → Option (Tag × List Char)
  | '!' :: cs =>
    if "DOCTYPE html>".toList.isPrefixOf cs then some (.doctype, cs.drop 13) else none
  | '/' :: cs =>
    match readName cs with
    | some (name, '>' :: rest) => some (.closing name, rest)
    | _ => none
  | cs =>
    match readName cs with
    | some (name, rest) => (afterTag false rest).map fun rest => (.opening name, rest)
    | none => none

theorem length_afterTag {quoted : Bool} {cs rest : List Char} (h : afterTag quoted cs = some rest) :
    rest.length < cs.length := by
  induction cs generalizing quoted with
  | nil => cases h
  | cons c cs ih =>
    simp only [afterTag] at h
    split at h
    · exact Nat.lt_succ_of_lt (ih h)
    split at h
    · exact Nat.lt_succ_of_lt (ih h)
    split at h
    · cases h
      exact Nat.lt_succ_self _
    split at h
    · cases h
    · exact Nat.lt_succ_of_lt (ih h)

theorem length_readName {cs rest : List Char} {name : String}
    (h : readName cs = some (name, rest)) : rest.length ≤ cs.length := by
  simp only [readName] at h
  split at h
  · cases h
  · cases h
    exact length_dropWhile_le _ _

theorem length_readTag {cs rest : List Char} {tag : Tag} (h : readTag cs = some (tag, rest)) :
    rest.length < cs.length := by
  unfold readTag at h
  split at h
  · split at h
    · cases h
      simp only [List.length_cons, List.length_drop]
      omega
    · cases h
  · split at h
    · next hname =>
      cases h
      have := length_readName hname
      simp only [List.length_cons] at this ⊢
      omega
    · cases h
  · split at h
    · next hname =>
      obtain ⟨rest, hrest, heq⟩ := Option.map_eq_some_iff.mp h
      cases heq
      exact Nat.lt_of_lt_of_le (length_afterTag hrest) (length_readName hname)
    · cases h

/-- The tags of a text, if it can be read to its end. -/
def tags (cs : List Char) : Option (List Tag) :=
  match cs with
  | [] => some []
  | c :: cs =>
    if c == '<' then
      match _h : readTag cs with
      | some (tag, rest) => (tags rest).map (tag :: ·)
      | none => none
    else tags cs
termination_by cs.length
decreasing_by
  · have := length_readTag _h
    simp only [List.length_cons]
    omega
  · simp

/-- The tags close in the reverse of the order they open in, starting from the names of the open
tags, innermost first. -/
def nested (isVoid : String → Bool) : List String → List Tag → Bool
  | stack, [] => stack.isEmpty
  | stack, .doctype :: ts => nested isVoid stack ts
  | stack, .opening name :: ts => nested isVoid (if isVoid name then stack else name :: stack) ts
  | [], .closing _ :: _ => false
  | top :: stack, .closing name :: ts =>
    !isVoid name && top == name && nested isVoid stack ts

/-- A text whose tags can be read to the end and nest. -/
def Balanced (options : Options) (html : String) : Prop :=
  (tags html.toList).any (nested options.isVoidTag []) = true

instance (options : Options) (html : String) : Decidable (Balanced options html) :=
  inferInstanceAs (Decidable (_ = true))

theorem balanced_iff {options : Options} {html : String} : Balanced options html ↔
    ∃ ts, tags html.toList = some ts ∧ nested options.isVoidTag [] ts = true :=
  Option.any_eq_true ..

/-! ## Reading goes on -/

theorem afterTag_append {quoted : Bool} {cs rest : List Char} (h : afterTag quoted cs = some rest)
    (more : List Char) : afterTag quoted (cs ++ more) = some (rest ++ more) := by
  induction cs generalizing quoted with
  | nil => cases h
  | cons c cs ih =>
    simp only [afterTag, List.cons_append] at h ⊢
    split at h
    · next hc => rw [if_pos hc, ih h]
    next hc =>
    rw [if_neg hc]
    split at h
    · next hq => rw [if_pos hq, ih h]
    next hq =>
    rw [if_neg hq]
    split at h
    · next hgt =>
      cases h
      rw [if_pos hgt]
    next hgt =>
    rw [if_neg hgt]
    split at h
    · cases h
    · next hlt => rw [if_neg hlt, ih h]

/-- A name ends where it ended before, when something followed it. -/
theorem readName_append {cs rest : List Char} {name : String} (h : readName cs = some (name, rest))
    (hrest : rest ≠ []) (more : List Char) :
    readName (cs ++ more) = some (name, rest ++ more) := by
  simp only [readName] at h ⊢
  split at h
  · cases h
  · next hname =>
    cases h
    rw [takeWhile_append_of_dropWhile hrest, dropWhile_append_of_dropWhile hrest, if_neg hname]

theorem readName_eq_none {c : Char} (h : isKeywordChar c = false) (cs : List Char) :
    readName (c :: cs) = none := by
  simp [readName, h]

/-- A `<` right before a name opens a tag of that name. -/
theorem readTag_of_readName {cs rest : List Char} {name : String}
    (h : readName cs = some (name, rest)) :
    readTag cs = (afterTag false rest).map fun rest => (.opening name, rest) := by
  unfold readTag
  split
  · rw [readName_eq_none (by decide)] at h
    cases h
  · rw [readName_eq_none (by decide)] at h
    cases h
  · rw [h]

theorem readTag_append {cs rest : List Char} {tag : Tag} (h : readTag cs = some (tag, rest))
    (more : List Char) : readTag (cs ++ more) = some (tag, rest ++ more) := by
  unfold readTag at h
  split at h
  · split at h
    · next hprefix =>
      cases h
      obtain ⟨after, rfl⟩ := List.isPrefixOf_iff_prefix.mp hprefix
      simp [readTag]
    · cases h
  · split at h
    · next hname =>
      cases h
      simp only [readTag, List.cons_append, readName_append hname (by simp)]
    · cases h
  · split at h
    · next name after hname =>
      obtain ⟨rest, hafter, heq⟩ := Option.map_eq_some_iff.mp h
      cases heq
      have hne : after ≠ [] := by
        rintro rfl
        cases hafter
      rw [readTag_of_readName (readName_append hname hne more), afterTag_append hafter]
      rfl
    · cases h

theorem tags_cons_of_ne {c : Char} (h : c ≠ '<') (cs : List Char) : tags (c :: cs) = tags cs := by
  rw [tags, if_neg (by simpa using h)]

theorem tags_cons_of_readTag {cs rest : List Char} {tag : Tag}
    (h : readTag cs = some (tag, rest)) : tags ('<' :: cs) = (tags rest).map (tag :: ·) := by
  rw [tags, if_pos (beq_self_eq_true _)]
  split
  · next h' =>
    rw [h] at h'
    cases h'
    rfl
  · next h' =>
    rw [h] at h'
    cases h'

/-- **Reading goes on where it stopped.** -/
theorem tags_append {as : List Char} {ts : List Tag} (h : tags as = some ts) (bs : List Char) :
    tags (as ++ bs) = (tags bs).map (ts ++ ·) := by
  induction as using tags.induct generalizing ts with
  | case1 =>
    rw [tags] at h
    cases h
    simp
  | case2 c cs hc tag rest hread ih =>
    obtain rfl : c = '<' := by simpa using hc
    rw [tags_cons_of_readTag hread] at h
    obtain ⟨us, hus, rfl⟩ := Option.map_eq_some_iff.mp h
    rw [List.cons_append, tags_cons_of_readTag (readTag_append hread bs), ih hus]
    simp [Function.comp_def]
  | case3 c cs hc hread =>
    rw [tags, if_pos hc] at h
    split at h
    · next h' => simp [hread] at h'
    · cases h
  | case4 c cs hc ih =>
    have hc : c ≠ '<' := by simpa using hc
    rw [tags_cons_of_ne hc] at h
    rw [List.cons_append, tags_cons_of_ne hc, ih h]

/-- A text without `<` has no tags. -/
theorem tags_text {cs : List Char} (h : '<' ∉ cs) : tags cs = some [] := by
  induction cs with
  | nil => rw [tags]
  | cons c cs ih =>
    rw [tags_cons_of_ne (fun hc => h (hc ▸ List.mem_cons_self)),
      ih fun hc => h (List.mem_cons_of_mem _ hc)]

/-! ## Tags that nest -/

/-- **Tags that nest leave the open tags around them alone.** -/
theorem nested_append {isVoid : String → Bool} {stack : List String} {ts : List Tag}
    (h : nested isVoid stack ts = true) (outer : List String) (us : List Tag) :
    nested isVoid (stack ++ outer) (ts ++ us) = nested isVoid outer us := by
  induction ts generalizing stack with
  | nil =>
    obtain rfl : stack = [] := by simpa [nested] using h
    rfl
  | cons t ts ih =>
    cases t with
    | doctype =>
      simp only [nested, List.cons_append] at h ⊢
      exact ih h
    | opening name =>
      simp only [nested, List.cons_append] at h ⊢
      split at h
      · next hv => rw [if_pos hv, ih h]
      · next hv => rw [if_neg hv, ← List.cons_append, ih h]
    | closing name =>
      cases stack with
      | nil => simp [nested] at h
      | cons top stack =>
        simp only [nested, List.cons_append, Bool.and_eq_true] at h ⊢
        rw [h.1.1, h.1.2, ih h.2]
        rfl

/-! ## Written tags -/

theorem readName_run {name rest : List Char} (hne : name ≠ [])
    (hname : ∀ c ∈ name, isKeywordChar c = true)
    (hrest : ∀ c ∈ rest.head?, isKeywordChar c = false) :
    readName (name ++ rest) = some (String.ofList name, rest) := by
  simp only [readName, takeWhile_run hname hrest, dropWhile_run hname hrest]
  rw [if_neg (by simpa using hne)]

/-- What may stand between the name and the end of an opening tag: a text that ends the name and
that a reader of the tag passes over. -/
structure Skipped (cs : List Char) : Prop where
  endsName : ∀ c ∈ cs.head?, isKeywordChar c = false
  skip : ∀ rest, afterTag false (cs ++ rest) = afterTag false rest

theorem Skipped.nil : Skipped [] := ⟨by simp, fun _ => rfl⟩

theorem Skipped.append {as bs : List Char} (ha : Skipped as) (hb : Skipped bs) :
    Skipped (as ++ bs) := by
  refine ⟨fun c hc => ?_, fun rest => ?_⟩
  · cases as with
    | nil => exact hb.endsName c hc
    | cons a as => exact ha.endsName c hc
  · rw [List.append_assoc, ha.skip, hb.skip]

theorem afterTag_run {cs : List Char} (h : ∀ c ∈ cs, c ≠ '\'' ∧ c ≠ '>' ∧ c ≠ '<')
    (rest : List Char) : afterTag false (cs ++ rest) = afterTag false rest := by
  induction cs with
  | nil => rfl
  | cons c cs ih =>
    have hc := h c List.mem_cons_self
    simp only [List.cons_append, afterTag, beq_iff_eq, hc.1, hc.2.1, hc.2.2, if_false]
    exact ih fun d hd => h d (List.mem_cons_of_mem _ hd)

theorem afterTag_quoted {cs : List Char} (h : '\'' ∉ cs) (rest : List Char) :
    afterTag true (cs ++ '\'' :: rest) = afterTag false rest := by
  induction cs with
  | nil => rfl
  | cons c cs ih =>
    have hc : c ≠ '\'' := fun hc => h (hc ▸ List.mem_cons_self)
    simp only [List.cons_append, afterTag, beq_iff_eq, hc, if_false, if_true]
    exact ih fun hd => h (List.mem_cons_of_mem _ hd)

theorem ne_of_isAttributeChar {c : Char} (h : isAttributeChar c = true) :
    c ≠ '\'' ∧ c ≠ '>' ∧ c ≠ '<' := by
  refine ⟨?_, ?_, ?_⟩ <;> rintro rfl <;> revert h <;> decide

/-- An attribute's name after a space is passed over. -/
theorem skipped_name {name : List Char} (h : ∀ c ∈ name, isAttributeChar c = true) :
    Skipped (' ' :: name) := by
  refine ⟨fun c hc => ?_, afterTag_run fun c hc => ?_⟩
  · cases hc
    decide
  · rcases List.mem_cons.mp hc with rfl | hc
    · decide
    · exact ne_of_isAttributeChar (h c hc)

/-- A value in apostrophes is passed over, if it holds none. -/
theorem skipped_value {value : List Char} (h : '\'' ∉ value) :
    Skipped ('=' :: '\'' :: (value ++ ['\''])) := by
  refine ⟨fun c hc => ?_, fun rest => ?_⟩
  · cases hc
    decide
  · have := afterTag_quoted h rest
    simpa [afterTag] using this

theorem tags_opening {name attributes : List Char} (hne : name ≠ [])
    (hname : ∀ c ∈ name, isKeywordChar c = true) (h : Skipped attributes) :
    tags ('<' :: (name ++ (attributes ++ ['>']))) = some [.opening (String.ofList name)] := by
  have hread : readName (name ++ (attributes ++ ['>'])) =
      some (String.ofList name, attributes ++ ['>']) := by
    refine readName_run hne hname fun c hc => ?_
    cases attributes with
    | nil =>
      cases hc
      decide
    | cons a attributes => exact h.endsName c hc
  have htag : readTag (name ++ (attributes ++ ['>'])) =
      some (.opening (String.ofList name), []) := by
    rw [readTag_of_readName hread, h.skip]
    rfl
  rw [tags_cons_of_readTag htag, tags]
  rfl

theorem tags_closing {name : List Char} (hne : name ≠ [])
    (hname : ∀ c ∈ name, isKeywordChar c = true) :
    tags ('<' :: '/' :: (name ++ ['>'])) = some [.closing (String.ofList name)] := by
  have hread : readName (name ++ ['>']) = some (String.ofList name, ['>']) :=
    readName_run hne hname fun c hc => by
      cases hc
      decide
  have htag : readTag ('/' :: (name ++ ['>'])) = some (.closing (String.ofList name), []) := by
    simp only [readTag, hread]
  rw [tags_cons_of_readTag htag, tags]
  rfl

theorem tags_doctype : tags doctype.toList = some [.doctype] := by
  have : doctype.toList = '<' :: '!' :: ("DOCTYPE html>".toList ++ []) := by decide
  have htag : readTag ('!' :: ("DOCTYPE html>".toList ++ [])) = some (.doctype, []) := by
    simp [readTag]
  rw [this, tags_cons_of_readTag htag, tags]
  rfl

/-! ## Balanced texts -/

variable {options : Options} {a b : String}

theorem balanced_text (h : '<' ∉ a.toList) : Balanced options a :=
  balanced_iff.mpr ⟨[], tags_text h, rfl⟩

theorem balanced_doctype : Balanced options doctype :=
  balanced_iff.mpr ⟨[.doctype], tags_doctype, rfl⟩

theorem Balanced.append (ha : Balanced options a) (hb : Balanced options b) :
    Balanced options (a ++ b) := by
  obtain ⟨ts, hts, hnts⟩ := balanced_iff.mp ha
  obtain ⟨us, hus, hnus⟩ := balanced_iff.mp hb
  refine balanced_iff.mpr ⟨ts ++ us, ?_, ?_⟩
  · rw [String.toList_append, tags_append hts, hus]
    rfl
  · rw [← hnus]
    exact nested_append hnts [] us

/-- A void tag is balanced by itself. -/
theorem balanced_void {name : String} (hv : options.isVoidTag name = true)
    (ha : tags a.toList = some [.opening name]) : Balanced options a :=
  balanced_iff.mpr ⟨[.opening name], ha, by simp [nested, hv]⟩

/-- A balanced text between the tags of an element is balanced. -/
theorem Balanced.element {name : String} (hv : options.isVoidTag name = false) {c : String}
    (ha : tags a.toList = some [.opening name]) (hb : Balanced options b)
    (hc : tags c.toList = some [.closing name]) : Balanced options (a ++ b ++ c) := by
  obtain ⟨ts, hts, hnts⟩ := balanced_iff.mp hb
  refine balanced_iff.mpr ⟨.opening name :: (ts ++ [.closing name]), ?_, ?_⟩
  · rw [String.append_assoc, String.toList_append, String.toList_append, tags_append ha,
      tags_append hts, hc]
    rfl
  · have := nested_append hnts [name] [.closing name]
    simp only [List.nil_append] at this
    simp [nested, hv, this]

example : Balanced {} "<!DOCTYPE html><p title='>'>a > b<br></p>" := by decide +kernel

example : ¬ Balanced {} "<b><i></b></i>" := by decide +kernel

example : ¬ Balanced {} "<br></br>" := by decide +kernel

end Stencil.Html
