/-
Attribute lists part by part. A list is read from left to right: a name, what follows it, then a
fresh search for the comma that ends the value. It may as well be split at its top-level commas
first and read one part after the other (`readPart`), without the last part if that is blank: a
comma is met outside everything, so that each search starts where the splitting stands too.

`parseAttributes_eq_parts`: for a well-nested list the two ways give the same result, the fault
included, and the attributes that are given more than once keep their first place and take their
last value.
-/
import Mathlib.Data.List.Basic
import Mathlib.Data.List.Induction
import Stencil.Proofs.Element.Printing
import Stencil.Proofs.Lists
import Stencil.Proofs.Nesting.Grammar
import Stencil.Proofs.Text.Names

namespace Stencil

open Text Nesting

/-! ## Texts between commas -/

namespace Nesting

variable {c : Char} {cs : List Char}

/-- A plain character in front of a part is no comma, and what follows it is a part. -/
theorem IsPart.tail (h : IsPart (c :: cs)) (hc : isPlain c = true) : c ≠ ',' ∧ IsPart cs := by
  have hnested := (staysNested_cons h.nested).2
  have hfind := h.no_comma
  rw [findDelimiter?, findFrom, covers_of_isPlain hc, feed_of_isPlain hc] at hfind
  rw [feed_of_isPlain hc] at hnested
  split at hfind
  · cases hfind
  · next hnot =>
    exact ⟨by simpa using hnot, hnested, Option.map_eq_none_iff.mp hfind⟩

theorem IsPart.dropWhile {p : Char → Bool} (hp : ∀ c, p c = true → isPlain c = true)
    (h : IsPart cs) : IsPart (cs.dropWhile p) := by
  induction cs with
  | nil => exact h
  | cons c cs ih =>
    rw [List.dropWhile_cons]
    split
    · next hc => exact ih (h.tail (hp c hc)).2
    · exact h

theorem IsPart.trimStart (h : IsPart cs) : IsPart (trimStart cs) :=
  h.dropWhile fun _ => isPlain_of_isBlank

/-- A well-nested text is a part, or a part, a comma and a well-nested text. -/
theorem WellNested.cut (h : WellNested cs) : IsPart cs ∨
    ∃ part more, cs = part ++ ',' :: more ∧ IsPart part ∧ WellNested more := by
  obtain ⟨items, rfl⟩ := wellNested_iff_exists_items.mp h
  have hnested : ∀ items, WellNested (Item.printAll items) := fun items =>
    wellNested_iff_exists_items.mpr ⟨items, rfl⟩
  rcases Item.freeOf_or_exists [','] items with hfree | ⟨front, c, hc, back, rfl, hmem, hfront⟩
  · exact .inl ⟨h, findDelimiter?_of_freeOf hfree⟩
  · rw [List.mem_singleton] at hmem
    refine .inr ⟨Item.printAll front, Item.printAll back, ?_,
      ⟨hnested front, findDelimiter?_of_freeOf hfront⟩, hnested back⟩
    rw [Item.printAll_append, Item.printAll, Item.print, hmem, List.singleton_append]

end Nesting

/-! ## Reading a part -/

namespace Element

/-- The value of an attribute from a trimmed text. -/
def readValue (name : String) (escape : Bool) (raw : List Char) : Except Fault AttributeValue :=
  if raw = [] then .error (.noAttributeValue name)
  else if raw.head? = some '\'' then .error (.singleQuotes (String.ofList raw))
  else if isStringLiteral raw then .ok (.literal (String.ofList (literalText raw)))
  else .ok (.expression (String.ofList raw) escape)

/-- An attribute from its name and the rest of its part: nothing, or a sign and a value. -/
def readAfterName (whole name : String) : List Char → Except Fault (String × AttributeValue)
  | [] => .ok (name, .boolean)
  | '!' :: '=' :: value => do .ok (name, ← readValue name false (trim value))
  | '=' :: value => do .ok (name, ← readValue name true (trim value))
  | _ => .error (.badTag whole .noEqualsSign)

/-- The attribute of one part of a list. `whole` is the list as it stands in messages. -/
def readPart (whole : String) (part : List Char) : Except Fault (String × AttributeValue) :=
  let name := (trim part).takeWhile isAttributeChar
  if name = [] then .error (.badTag whole .noAttributeName)
  else readAfterName whole (String.ofList name) (trimStart ((trim part).dropWhile isAttributeChar))

/-- The parts of a list without a blank one at its end. -/
def withoutBlankEnd (parts : List (List Char)) : List (List Char) :=
  if parts.getLast?.any allBlank then parts.dropLast else parts

theorem parseValue_eq_readValue (name : String) (escape : Bool) (raw : List Char) :
    parseValue name escape raw = readValue name escape raw := by
  unfold parseValue readValue
  split
  · rfl
  · rfl
  · next hnil hquote =>
    have hhead : raw.head? ≠ some '\'' := by
      intro hhead
      obtain ⟨rest, rfl⟩ := List.head?_eq_some_iff.mp hhead
      exact hquote rest rfl
    rw [if_neg hnil, if_neg hhead]

/-- What is left of a list after the comma that ends a part. -/
def afterComma : List Char → List Char
  | ',' :: more => trimStart more
  | _ => []

/-- What may follow a part: the end of the list, or a comma. -/
def EndsPart (tail : List Char) : Prop := tail = [] ∨ ∃ more, tail = ',' :: more

theorem EndsPart.stop {tail : List Char} (h : EndsPart tail) {p : Char → Bool}
    (hp : p ',' = false) : ∀ c ∈ tail.head?, p c = false := by
  rcases h with rfl | ⟨more, rfl⟩
  · simp
  · rintro c ⟨⟩
    exact hp

/-- The value of a part ends with the part. -/
theorem cutValue_part {value tail : List Char} (h : IsPart value) (htail : EndsPart tail) :
    cutValue (value ++ tail) = (trim value, afterComma tail) := by
  have hvalue := h.trimStart
  rw [cutValue, trimStart, dropWhile_append_stop (htail.stop (by decide)), ← trimStart]
  rcases htail with rfl | ⟨more, rfl⟩
  · rw [List.append_nil, List.append_nil, hvalue.no_comma]
    rfl
  · have hfind : findDelimiter? (trimStart value ++ ',' :: more) [','] =
        some ⟨trimStart value, ',', more⟩ :=
      findFrom_delimiter hvalue.nested.run_start (by decide) (by decide) hvalue.no_comma more
    rw [hfind]
    simp only [trim_trimStart, afterComma]

theorem isBlank_sign (escape : Bool) : ∀ c ∈ sign escape, isBlank c = false := by
  have hmarks : isBlank '!' = false ∧ isBlank '=' = false := by decide
  cases escape <;> simp [sign, hmarks]

theorem readAfterName_sign (whole name : String) (escape : Bool) (value : List Char) :
    readAfterName whole name (sign escape ++ value) =
      (do .ok (name, ← readValue name escape (trim value))) := by
  cases escape <;> simp [sign, readAfterName]

/-- What follows a name and is no sign is a fault, unless it ends the part. -/
theorem parseAfterName_fault (whole name : String) {cs : List Char} (htail : ¬ EndsPart cs)
    (hsign : ∀ escape value, cs ≠ sign escape ++ value) :
    parseAfterName whole name cs = .error (.badTag whole .noEqualsSign) := by
  rw [parseAfterName]
  · exact fun hnil => htail (.inl hnil)
  · exact fun more hmore => htail (.inr ⟨more, hmore⟩)
  · exact hsign false
  · exact hsign true

theorem readAfterName_fault (whole name : String) {cs : List Char} (hne : cs ≠ [])
    (hsign : ∀ escape value, cs ≠ sign escape ++ value) :
    readAfterName whole name cs = .error (.badTag whole .noEqualsSign) := by
  rw [readAfterName]
  · exact hne
  · exact hsign false
  · exact hsign true

/-- No sign reaches beyond the end of a part. -/
theorem ne_sign_append {after tail : List Char} (hne : after ≠ []) (htail : EndsPart tail)
    (hsign : ∀ escape value, after ≠ sign escape ++ value) :
    ∀ escape value, after ++ tail ≠ sign escape ++ value := by
  obtain ⟨c, cs, rfl⟩ := List.exists_cons_of_ne_nil hne
  intro escape value heq
  cases escape with
  | true =>
    replace heq : c :: (cs ++ tail) = '=' :: value := heq
    rw [List.cons.injEq] at heq
    exact hsign true cs (by rw [heq.1]; rfl)
  | false =>
    replace heq : c :: (cs ++ tail) = '!' :: '=' :: value := heq
    rw [List.cons.injEq] at heq
    obtain ⟨rfl, heq⟩ := heq
    cases cs with
    | nil => rcases htail with rfl | ⟨more, rfl⟩ <;> simp at heq
    | cons d ds =>
      rw [List.cons_append, List.cons.injEq] at heq
      exact hsign false ds (by rw [heq.1]; rfl)

/-- After a name, a list is read up to the end of the part, and then goes on. -/
theorem parseAfterName_part {whole name : String} {after tail : List Char} (h : IsPart after)
    (hblank : ∀ c ∈ after.head?, isBlank c = false) (htail : EndsPart tail) :
    parseAfterName whole name (after ++ tail) = (do
      let entry ← readAfterName whole name (trimEnd after)
      let entries ← parseEntries whole (afterComma tail)
      .ok (entry :: entries)) := by
  by_cases hsign : ∃ escape value, after = sign escape ++ value
  · obtain ⟨escape, value, rfl⟩ := hsign
    have hvalue : IsPart value := by
      cases escape with
      | false => exact (IsPart.tail (IsPart.tail h (by decide)).2 (by decide)).2
      | true => exact (IsPart.tail h (by decide)).2
    rw [List.append_assoc, parseAfterName_sign, cutValue_part hvalue htail,
      trimEnd_append (isBlank_sign escape), readAfterName_sign, trim_trimEnd,
      parseValue_eq_readValue]
    cases readValue name escape (trim value) <;> rfl
  · simp only [not_exists] at hsign
    cases after with
    | nil =>
      rcases htail with rfl | ⟨more, rfl⟩
      · simp [parseAfterName, readAfterName, trimEnd, afterComma, parseEntries, bind, Except.bind]
      · simp [parseAfterName, readAfterName, trimEnd, afterComma, bind, Except.bind]
    | cons c cs =>
      -- Neither a comma nor the end: both readers look at the same first two characters.
      have hc : ∀ d ∈ [c], isBlank d = false := by simpa using hblank c rfl
      have hend : trimEnd (c :: cs) = c :: trimEnd cs := trimEnd_append hc cs
      have hcut : ∀ escape value, c :: trimEnd cs ≠ sign escape ++ value := by
        intro escape value heq
        obtain ⟨rest, hrest⟩ := trimEnd_initial (c :: cs)
        rw [hend, heq, List.append_assoc] at hrest
        exact hsign escape _ hrest.symm
      have hends : ¬ EndsPart (c :: cs ++ tail) := by
        rintro (hnil | ⟨more, hmore⟩)
        · cases hnil
        · rw [List.cons_append, List.cons.injEq] at hmore
          rw [hmore.1] at h
          exact (h.tail (by decide)).1 rfl
      have hsigns := ne_sign_append (List.cons_ne_nil c cs) htail hsign
      rw [parseAfterName_fault whole name hends hsigns, hend,
        readAfterName_fault whole name (List.cons_ne_nil _ _) hcut]
      rfl

/-- A list is read part by part. -/
theorem parseEntries_part (whole : String) {part tail : List Char} (h : IsPart part)
    (htail : EndsPart tail) (hne : trimStart (part ++ tail) ≠ []) :
    parseEntries whole (trimStart (part ++ tail)) = (do
      let entry ← readPart whole part
      let entries ← parseEntries whole (afterComma tail)
      .ok (entry :: entries)) := by
  have hcut : trimStart (part ++ tail) = trimStart part ++ tail :=
    dropWhile_append_stop (htail.stop (by decide)) part
  have hstop := htail.stop (p := isAttributeChar) (by decide)
  have htake := takeWhile_append_stop hstop (trimStart part)
  have hdrop := dropWhile_append_stop hstop (trimStart part)
  have htrim : trimStart ((trimStart part).dropWhile isAttributeChar ++ tail) =
      trimStart ((trimStart part).dropWhile isAttributeChar) ++ tail :=
    dropWhile_append_stop (htail.stop (by decide)) _
  have hname : ∀ c, isAttributeChar c = true → isBlank c = false :=
    fun _ => isBlank_of_isAttributeChar
  rw [hcut] at hne ⊢
  unfold readPart
  obtain ⟨htake', hdrop'⟩ := takeWhile_trimEnd hname (trimStart part)
  rw [trim, htake', hdrop', trimStart_trimEnd, trim]
  dsimp only
  split
  · next hempty =>
    rw [← htake] at hempty
    have hrest : (trimStart part ++ tail).isEmpty = false := by simpa using hne
    rw [parseEntries]
    simp [hempty, hrest, bind, Except.bind]
  · next hcons =>
    have hafter := (h.trimStart.dropWhile fun _ => isPlain_of_isAttributeChar).trimStart
    rw [parseEntries_of_name (by rwa [htake]), htake, hdrop, htrim,
      parseAfterName_part hafter head?_dropWhile_of_mem htail]

theorem withoutBlankEnd_cons (p : List Char) {parts : List (List Char)} (hne : parts ≠ []) :
    withoutBlankEnd (p :: parts) = p :: withoutBlankEnd parts := by
  obtain ⟨q, qs, rfl⟩ := List.exists_cons_of_ne_nil hne
  unfold withoutBlankEnd
  rw [List.getLast?_cons_cons, List.dropLast_cons_cons]
  split <;> rfl

theorem trimStart_eq_nil_iff {cs : List Char} : trimStart cs = [] ↔ allBlank cs = true := by
  rw [trimStart, List.dropWhile_eq_nil_iff, allBlank, List.all_eq_true]

/-- The entries of a well-nested list are those of its parts. -/
theorem parseEntries_eq_parts (whole : String) {list : List Char} (h : WellNested list) :
    ∃ parts, splitTopLevel? list ',' = some parts ∧ parts ≠ [] ∧
      parseEntries whole (trimStart list) = (withoutBlankEnd parts).mapM (readPart whole) := by
  have hnil : parseEntries whole [] = .ok [] := by simp [parseEntries]
  -- The induction is on the length: each comma leaves a shorter list behind it.
  induction hn : list.length using Nat.strong_induction_on generalizing list with
  | _ n ih =>
    rcases h.cut with hpart | ⟨part, more, rfl, hpart, hmore⟩
    · refine ⟨[list], splitTopLevel?_single hpart.nested.run_start hpart.no_comma,
        List.cons_ne_nil _ _, ?_⟩
      by_cases hblank : allBlank list = true
      · have hparts : withoutBlankEnd [list] = [] := by simp [withoutBlankEnd, hblank]
        rw [trimStart_eq_nil_iff.mpr hblank, hparts, hnil]
        rfl
      · have hparts : withoutBlankEnd [list] = [list] := by simp [withoutBlankEnd, hblank]
        have hlist := parseEntries_part whole hpart (.inl rfl)
          (by rw [List.append_nil]; exact mt trimStart_eq_nil_iff.mp hblank)
        have hend : parseEntries whole (afterComma []) = .ok [] := hnil
        rw [List.append_nil, hend] at hlist
        rw [hlist, hparts, List.mapM_cons, List.mapM_nil]
        rfl
    · obtain ⟨parts, hsplit, hne, hparse⟩ := ih more.length
        (by rw [← hn, List.length_append, List.length_cons]; omega) hmore rfl
      have hcons : splitTopLevel? (part ++ ',' :: more) ',' = some (part :: parts) := by
        rw [splitTopLevel?_separator (by decide) hpart.nested.run_start hpart.no_comma, hsplit]
        rfl
      refine ⟨part :: parts, hcons, List.cons_ne_nil _ _, ?_⟩
      have hstart : trimStart (part ++ ',' :: more) ≠ [] := by
        rw [Ne, trimStart_eq_nil_iff, allBlank, List.all_append, List.all_cons]
        simp [show isBlank ',' = false by decide]
      rw [parseEntries_part whole hpart (.inr ⟨more, rfl⟩) hstart, afterComma, hparse,
        withoutBlankEnd_cons part hne, List.mapM_cons]
      rfl

/-! ## Attributes that are given more than once -/

/-- The last value that is given to a name. -/
def lastValue? (name : String) (entries : List (String × AttributeValue)) :
    Option AttributeValue :=
  entries.reverse.lookup name

/-- The names other than `id` and `class`, in the order in which they first occur. -/
def otherNames (entries : List (String × AttributeValue)) : List String :=
  ((entries.map (·.1)).filter fun name => name != "id" && name != "class").eraseDups

/-- The element with the last value of each attribute that is given. -/
def withLast (e : Element) (entries : List (String × AttributeValue)) : Element :=
  { e with
    id := (lastValue? "id" entries).or e.id
    explicitClass := (lastValue? "class" entries).or e.explicitClass
    attributes := (otherNames entries).filterMap fun name =>
      (lastValue? name entries).map (name, ·) }

theorem lastValue?_concat (name : String) (entries : List (String × AttributeValue))
    (entry : String × AttributeValue) :
    lastValue? name (entries ++ [entry]) =
      if name = entry.1 then some entry.2 else lastValue? name entries := by
  rw [lastValue?, List.reverse_append, List.reverse_singleton, List.singleton_append,
    List.lookup_cons, ← lastValue?]
  split
  · next h => rw [if_pos (beq_iff_eq.mp h)]
  · next h => rw [if_neg (beq_eq_false_iff_ne.mp h)]

theorem filterMap_of_not_mem {names : List String} {name : String} (h : name ∉ names)
    (value? : String → Option AttributeValue) (value : AttributeValue) :
    names.filterMap (fun n => (if n = name then some value else value? n).map (n, ·)) =
      names.filterMap fun n => (value? n).map (n, ·) := by
  refine List.filterMap_congr fun n hn => ?_
  rw [if_neg fun heq : n = name => h (heq ▸ hn)]

/-- Assigning a value to a list of names with their values: the name comes last if it is new. -/
theorem assign_filterMap {names : List String} (hnodup : names.Nodup)
    {value? : String → Option AttributeValue} (hsome : ∀ n ∈ names, (value? n).isSome)
    (name : String) (value : AttributeValue) :
    assign name value (names.filterMap fun n => (value? n).map (n, ·)) =
      (if name ∈ names then names else names ++ [name]).filterMap fun n =>
        (if n = name then some value else value? n).map (n, ·) := by
  induction names with
  | nil => simp [assign]
  | cons n names ih =>
    rw [List.nodup_cons] at hnodup
    rw [List.forall_mem_cons] at hsome
    obtain ⟨v, hv⟩ := Option.isSome_iff_exists.mp hsome.1
    have hfirst : (n :: names).filterMap (fun n => (value? n).map (n, ·)) =
        (n, v) :: names.filterMap fun n => (value? n).map (n, ·) := by simp [hv]
    rw [hfirst, assign]
    by_cases hn : n = name
    · -- The name stands here, and nowhere else.
      subst hn
      simp [filterMap_of_not_mem hnodup.1]
    · have hne : ¬ name = n := fun h => hn h.symm
      simp only [beq_iff_eq, hn, if_false, ih hnodup.2 hsome.2, List.mem_cons, hne, false_or]
      split <;> simp [hn, hv]

theorem otherNames_concat_of_eq {entries : List (String × AttributeValue)} {name : String}
    (h : name = "id" ∨ name = "class") (value : AttributeValue) :
    otherNames (entries ++ [(name, value)]) = otherNames entries := by
  unfold otherNames
  rcases h with rfl | rfl <;> simp

theorem otherNames_concat {entries : List (String × AttributeValue)} {name : String}
    (hid : name ≠ "id") (hclass : name ≠ "class") (value : AttributeValue) :
    otherNames (entries ++ [(name, value)]) =
      if name ∈ otherNames entries then otherNames entries else otherNames entries ++ [name] := by
  have hone : [name].filter (fun name => name != "id" && name != "class") = [name] := by
    simp [hid, hclass]
  unfold otherNames
  rw [List.map_append, List.filter_append, List.map_singleton, hone, Lists.eraseDups_concat]
  simp only [List.mem_eraseDups]

theorem not_mem_otherNames {entries : List (String × AttributeValue)} :
    "id" ∉ otherNames entries ∧ "class" ∉ otherNames entries := by
  simp [otherNames, List.mem_eraseDups]

theorem nodup_otherNames (entries : List (String × AttributeValue)) :
    (otherNames entries).Nodup := Lists.nodup_eraseDups _

theorem isSome_lastValue? {entries : List (String × AttributeValue)} {name : String}
    (h : name ∈ otherNames entries) : (lastValue? name entries).isSome := by
  rw [otherNames, List.mem_eraseDups, List.mem_filter, List.mem_map] at h
  obtain ⟨⟨entry, hmem, rfl⟩, -⟩ := h
  rw [lastValue?, List.lookup_isSome_iff]
  exact ⟨entry, List.mem_reverse.mpr hmem, beq_self_eq_true _⟩

/-- Setting attributes one after the other leaves each at its first place with its last value. -/
theorem withEntries_eq_withLast {e : Element} (he : e.attributes = [])
    (entries : List (String × AttributeValue)) : e.withEntries entries = e.withLast entries := by
  induction entries using List.reverseRecOn with
  | nil =>
    obtain ⟨tag, id, classes, explicitClass, attributes, content⟩ := e
    obtain rfl : attributes = [] := he
    rfl
  | append_singleton entries entry ih =>
    obtain ⟨name, value⟩ := entry
    have hlast : ∀ n, lastValue? n (entries ++ [(name, value)]) =
        if n = name then some value else lastValue? n entries := fun n => lastValue?_concat n _ _
    rw [withEntries_append, ih, withEntries_cons, withEntries_nil]
    unfold setAttribute withLast
    by_cases hid : name = "id"
    · subst hid
      simp [hlast, otherNames_concat_of_eq, filterMap_of_not_mem not_mem_otherNames.1]
    · by_cases hclass : name = "class"
      · subst hclass
        simp [hlast, otherNames_concat_of_eq, filterMap_of_not_mem not_mem_otherNames.2]
      · have hsome : ∀ n ∈ otherNames entries, (lastValue? n entries).isSome := fun _ =>
          isSome_lastValue?
        have hassign := assign_filterMap (nodup_otherNames entries) hsome name value
        simp [hlast, otherNames_concat hid hclass, hid, hclass, hassign, Ne.symm hid,
          Ne.symm hclass]

/-- **Reading a list from left to right is reading its parts one after the other.** -/
theorem parseAttributes_eq_parts {list : List Char} (h : WellNested list) (tag : String)
    (id : Option AttributeValue) (classes : List String) :
    ∃ parts, splitTopLevel? list ',' = some parts ∧
      parseAttributes { tag, id, classes } list =
        ((withoutBlankEnd parts).mapM (readPart (String.ofList list))).map
          (withLast { tag, id, classes }) := by
  obtain ⟨parts, hsplit, -, hparse⟩ := parseEntries_eq_parts (String.ofList list) h
  refine ⟨parts, hsplit, ?_⟩
  have hlast : ∀ entries, withEntries { tag, id, classes } entries =
      withLast { tag, id, classes } entries := withEntries_eq_withLast rfl
  rw [parseAttributes, hparse]
  cases (withoutBlankEnd parts).mapM (readPart (String.ofList list)) with
  | error fault => rfl
  | ok entries => exact congrArg Except.ok (hlast entries)

/-- Attributes that are given twice, a comma in a group, and one at the end. -/
def repeated : List Char := "a=1, id=\"x\", b, a!=f(1, 2), id=y, ".toList

theorem parseAttributes_eq_parts_repeated : WellNested repeated ∧
    ∃ parts, splitTopLevel? repeated ',' = some parts ∧
      parseAttributes { tag := "p", id := none, classes := ["wide"] } repeated =
        ((withoutBlankEnd parts).mapM (readPart (String.ofList repeated))).map
          (withLast { tag := "p", id := none, classes := ["wide"] }) := by
  have h : WellNested repeated := by decide +kernel
  exact ⟨h, parseAttributes_eq_parts h "p" none ["wide"]⟩

example : parseAttributes { tag := "p" } repeated = .ok
    { tag := "p", id := some (.expression "y" true),
      attributes := [("a", .expression "f(1, 2)" false), ("b", .boolean)] } := by
  decide +kernel

end Element

end Stencil
