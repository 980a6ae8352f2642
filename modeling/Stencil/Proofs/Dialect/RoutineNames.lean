/-
The names of routines. The routines of a component with an identifier for a name can be declared
under the names that a dialect gives them, unless it gives none: these are identifiers of the
language, or raw ones, and none of its keywords (`Rust.IsRoutineName`, `Go.IsRoutineName`). Two
components get the same names only if their own names differ in case and underscores at most, and
for Go in the case of the first letter at most (`routineNames_declarable`).
-/
import Stencil.Dialect.Go
import Stencil.Dialect.Rust
import Stencil.Proofs.Text.Names

namespace Stencil.Dialect

open Text

theorem isIdentifier_append {front rest : String} (hfront : isIdentifier front.toList = true)
    (hrest : ∀ c ∈ rest.toList, isIdentifierChar c = true) :
    isIdentifier (front ++ rest).toList = true := by
  rw [String.toList_append]
  cases hcs : front.toList with
  | nil =>
    rw [hcs] at hfront
    cases hfront
  | cons c cs =>
    rw [hcs, isIdentifier, Bool.and_eq_true] at hfront
    rw [List.cons_append, isIdentifier, hfront.1, Bool.true_and, List.all_append, hfront.2,
      Bool.true_and, List.all_eq_true]
    exact hrest

/-- A text is none of the words if no word begins as it does. -/
theorem append_not_mem {front : String} {words : List String}
    (h : ∀ word ∈ words, ¬front.toList <+: word.toList) (rest : String) :
    front ++ rest ∉ words := by
  intro hmem
  refine h _ hmem ?_
  rw [String.toList_append]
  exact List.prefix_append _ _

namespace Rust

/-- An identifier that is neither `_` nor a keyword, or the raw form of a keyword that has one. -/
def IsRoutineName (word : String) : Prop :=
  (isIdentifier word.toList = true ∧ word ≠ "_" ∧ isKeyword word = false) ∨
    ∃ keyword, word = "r#" ++ keyword ∧ isKeyword keyword = true ∧ keyword ∉ pathKeywords

theorem identifier?_eq_none {word : String} :
    identifier? word = none ↔ word = "_" ∨ word ∈ pathKeywords := by
  unfold identifier?
  split
  · next h => simpa using h
  · next h =>
    simp only [Bool.or_eq_true, beq_iff_eq, List.contains_iff_mem] at h
    simp only [h, iff_false]
    split <;> simp

/-- A word that is an identifier is none without a raw form, and it is written raw if it is a
keyword. -/
theorem identifier?_inv {word b : String} (h : identifier? word = some b) :
    word ≠ "_" ∧ word ∉ pathKeywords ∧
      b = if isKeyword word = true then "r#" ++ word else word := by
  have hsome : ¬(word = "_" ∨ word ∈ pathKeywords) := by
    rw [← identifier?_eq_none, h]
    simp
  rw [not_or] at hsome
  refine ⟨hsome.1, hsome.2, ?_⟩
  unfold identifier? at h
  split at h
  · cases h
  · split at h
    · next hkeyword =>
      rw [if_pos hkeyword]
      exact (Option.some.inj h).symm
    · next hkeyword =>
      rw [if_neg hkeyword]
      exact (Option.some.inj h).symm

theorem routineNames_eq_some {name b s : String} :
    routineNames name = some (b, s) ↔
      identifier? (snakeName name) = some b ∧ s = streamingName name := by
  rw [routineNames, bufferedName, Option.map_eq_some_iff]
  constructor
  · rintro ⟨word, hword, heq⟩
    cases heq
    rw [hword]
    exact ⟨rfl, rfl⟩
  · rintro ⟨hword, rfl⟩
    exact ⟨b, hword, by rw [hword, Option.getD_some]⟩

/-- The streaming name is the longer one, also next to a raw identifier. -/
theorem ne_of_routineNames {name b s : String} (h : routineNames name = some (b, s)) : b ≠ s := by
  obtain ⟨hidentifier, rfl⟩ := routineNames_eq_some.mp h
  obtain ⟨-, -, rfl⟩ := identifier?_inv hidentifier
  have hstream : (streamingName name).length = 7 + (snakeName name).length :=
    String.length_append ..
  have hraw : ("r#" ++ snakeName name).length = 2 + (snakeName name).length :=
    String.length_append ..
  intro heq
  have hlength := congrArg String.length heq
  split at hlength <;> omega

theorem isRoutineName_of_identifier? {word b : String} (hword : isIdentifier word.toList = true)
    (h : identifier? word = some b) : IsRoutineName b := by
  obtain ⟨hblank, hpath, rfl⟩ := identifier?_inv h
  split
  · next hkeyword => exact .inr ⟨word, rfl, hkeyword, hpath⟩
  · next hkeyword => exact .inl ⟨hword, hblank, Bool.eq_false_iff.mpr hkeyword⟩

/-- No identifier looks like the raw form of another. -/
theorem identifier?_injective {v w b : String} (hv : isIdentifier v.toList = true)
    (hw : isIdentifier w.toList = true) (hvb : identifier? v = some b)
    (hwb : identifier? w = some b) : v = w := by
  have hraw : ∀ u x : String, isIdentifier x.toList = true → "r#" ++ u ≠ x := by
    rintro u _ hx rfl
    have hsign : '#' ∈ ("r#" ++ u).toList := by simp
    exact absurd (isIdentifierChar_of_isIdentifier hx _ hsign) (by decide)
  obtain ⟨-, -, rfl⟩ := identifier?_inv hvb
  obtain ⟨-, -, heq⟩ := identifier?_inv hwb
  split at heq
  · split at heq
    · exact (String.append_right_inj _).mp heq
    · exact absurd heq (hraw v w hw)
  · split at heq
    · exact absurd heq.symm (hraw w v hv)
    · exact heq

theorem toList_snakeName (name : String) : (snakeName name).toList = snakeCase name.toList :=
  String.toList_ofList

section

variable {name : String} (hname : isIdentifier name.toList = true)

include hname

theorem isIdentifier_snakeName : isIdentifier (snakeName name).toList = true := by
  rw [toList_snakeName]
  exact isIdentifier_snakeCase hname

theorem not_isUppercase_snakeName : ∀ c ∈ (snakeName name).toList, isUppercase c = false := by
  rw [toList_snakeName]
  exact fun c hc => (forall_mem_snakeCase (isIdentifierChar_of_isIdentifier hname) c hc).2

theorem snakeName_snakeName : snakeName (snakeName name) = snakeName name := by
  have hlower := not_isUppercase_snakeName hname
  rw [snakeName, snakeCase_of_not_isUppercase hlower, String.ofList_toList]

/-- In snake case there is no `Self`. -/
theorem routineNames_eq_none :
    routineNames name = none ↔ snakeName name ∈ ["_", "crate", "self", "super"] := by
  have hself : snakeName name ≠ "Self" := by
    intro heq
    have hlower := not_isUppercase_snakeName hname 'S' (by rw [heq]; decide)
    exact absurd hlower (by decide)
  rw [routineNames, Option.map_eq_none_iff, identifier?_eq_none]
  simp [pathKeywords, hself]

/-- Both routines can be declared under their names. -/
theorem isRoutineName_routineNames {b s : String} (h : routineNames name = some (b, s)) :
    IsRoutineName b ∧ isIdentifier s.toList = true ∧ isKeyword s = false := by
  obtain ⟨hidentifier, rfl⟩ := routineNames_eq_some.mp h
  have hsnake := isIdentifier_snakeName hname
  have hwords : ∀ word ∈ keywords, ¬"stream_".toList <+: word.toList := by decide
  refine ⟨isRoutineName_of_identifier? hsnake hidentifier, ?_, ?_⟩
  · exact isIdentifier_append (by decide) (isIdentifierChar_of_isIdentifier hsnake)
  · rw [isKeyword, List.contains_eq_mem, decide_eq_false_iff_not]
    exact append_not_mem hwords _

/-- Routines of the same name belong to components with the same name in snake case. -/
theorem snakeName_eq_of_clash {other : String} (hother : isIdentifier other.toList = true)
    {b s b' s' : String} (h : routineNames name = some (b, s))
    (h' : routineNames other = some (b', s')) (hclash : b = b' ∨ s = s') :
    snakeName name = snakeName other := by
  obtain ⟨hb, rfl⟩ := routineNames_eq_some.mp h
  obtain ⟨hb', rfl⟩ := routineNames_eq_some.mp h'
  rcases hclash with rfl | hstream
  · have hsnake := isIdentifier_snakeName hname
    exact identifier?_injective hsnake (isIdentifier_snakeName hother) hb hb'
  · exact (String.append_right_inj _).mp hstream

end

end Rust

namespace Go

/-- An identifier that is neither a keyword nor reserved. -/
def IsRoutineName (word : String) : Prop :=
  isIdentifier word.toList = true ∧ isKeyword word = false ∧ word ∉ reservedNames

theorem of_routineNames {name b s : String} (h : routineNames name = some (b, s)) :
    b = name ∧ s = streamingName name ∧ name ≠ "_" ∧ isKeyword name = false ∧
      name ∉ reservedNames := by
  unfold routineNames at h
  split at h
  · cases h
  · next hnot =>
    cases h
    simp only [Bool.or_eq_true, beq_iff_eq, List.contains_iff_mem, not_or, Bool.not_eq_true] at hnot
    exact ⟨rfl, rfl, hnot.1.1, hnot.1.2, hnot.2⟩

/-- The streaming name is the longer one, whatever becomes of the first character. -/
theorem ne_of_routineNames {name b s : String} (h : routineNames name = some (b, s)) : b ≠ s := by
  obtain ⟨rfl, rfl, -⟩ := of_routineNames h
  have hcapital : b.length ≤ (capitalize b.toList).length + 1 := by
    rw [← String.length_toList]
    cases b.toList <;> simp [capitalize]
  have hstream : (streamingName b).length = 6 + (capitalize b.toList).length := by
    have hfront : "stream".length = 6 := rfl
    rw [streamingName, String.length_append, hfront, String.length_ofList]
  intro heq
  have hlength := congrArg String.length heq
  omega

section

variable {name : String} (hname : isIdentifier name.toList = true)

include hname

/-- Both routines can be declared under their names. -/
theorem isRoutineName_routineNames {b s : String} (h : routineNames name = some (b, s)) :
    IsRoutineName b ∧ IsRoutineName s := by
  obtain ⟨rfl, rfl, -, hkeyword, hreserved⟩ := of_routineNames h
  have hwords : ∀ word ∈ keywords ++ reservedNames, ¬"stream".toList <+: word.toList := by decide
  have hnot := append_not_mem hwords (String.ofList (capitalize b.toList))
  rw [List.mem_append, not_or] at hnot
  refine ⟨⟨hname, hkeyword, hreserved⟩, ?_, ?_, hnot.2⟩
  · refine isIdentifier_append (by decide) ?_
    rw [String.toList_ofList]
    exact forall_mem_capitalize (isIdentifierChar_of_isIdentifier hname)
  · rw [isKeyword, List.contains_eq_mem, decide_eq_false_iff_not]
    exact hnot.1

/-- Streaming routines of the same name belong to components whose names differ in the case of the
first letter at most. -/
theorem tail_eq_of_streamingName {other : String} (hother : isIdentifier other.toList = true)
    (h : streamingName name = streamingName other) :
    ∃ c d rest, name.toList = c :: rest ∧ other.toList = d :: rest ∧ lowercase c = lowercase d := by
  have hchars := isIdentifierChar_of_isIdentifier hname
  have hchars' := isIdentifierChar_of_isIdentifier hother
  have hcapital : capitalize name.toList = capitalize other.toList :=
    String.ofList_inj.mp ((String.append_right_inj _).mp h)
  cases hc : name.toList with
  | nil =>
    rw [hc] at hname
    cases hname
  | cons c cs =>
    cases hd : other.toList with
    | nil =>
      rw [hd] at hother
      cases hother
    | cons d ds =>
      have hcchar := hchars c (by simp [hc])
      have hdchar := hchars' d (by simp [hd])
      obtain ⟨hcupper, -, hclower⟩ := upper_of_isIdentifierChar hcchar
      obtain ⟨hdupper, -, hdlower⟩ := upper_of_isIdentifierChar hdchar
      rw [hc, hd, capitalize, capitalize, hcupper, hdupper, List.singleton_append,
        List.singleton_append, List.cons.injEq] at hcapital
      refine ⟨c, d, cs, rfl, by rw [hcapital.2], ?_⟩
      rw [(lower_of_isIdentifierChar hcchar).1, (lower_of_isIdentifierChar hdchar).1, ← hclower,
        ← hdlower, hcapital.1]

end

end Go

/-- **Routine names can be declared, and they clash only by case and underscores.** -/
theorem routineNames_declarable {name : String} (hname : isIdentifier name.toList = true) :
    (isIdentifier (Rust.snakeName name).toList = true ∧
      (∀ c ∈ (Rust.snakeName name).toList, isUppercase c = false) ∧
      withoutUnderscores (Rust.snakeName name).toList =
        withoutUnderscores (name.toList.flatMap lowercase) ∧
      Rust.snakeName (Rust.snakeName name) = Rust.snakeName name) ∧
    (Rust.routineNames name = none ↔ Rust.snakeName name ∈ ["_", "crate", "self", "super"]) ∧
    (∀ b s, Rust.routineNames name = some (b, s) →
      Rust.IsRoutineName b ∧ isIdentifier s.toList = true ∧ Rust.isKeyword s = false) ∧
    (∀ b s, Go.routineNames name = some (b, s) → Go.IsRoutineName b ∧ Go.IsRoutineName s) ∧
    ∀ other, isIdentifier other.toList = true →
      (∀ b s b' s', Rust.routineNames name = some (b, s) → Rust.routineNames other = some (b', s') →
        b = b' ∨ s = s' → Rust.snakeName name = Rust.snakeName other ∧
          withoutUnderscores (name.toList.flatMap lowercase) =
            withoutUnderscores (other.toList.flatMap lowercase)) ∧
      ∀ b s b' s', Go.routineNames name = some (b, s) → Go.routineNames other = some (b', s') →
        s = s' → ∃ c d rest, name.toList = c :: rest ∧ other.toList = d :: rest ∧
          lowercase c = lowercase d := by
  have hloose : ∀ {n : String}, isIdentifier n.toList = true →
      withoutUnderscores (Rust.snakeName n).toList =
        withoutUnderscores (n.toList.flatMap lowercase) := by
    intro n hn
    rw [Rust.toList_snakeName]
    exact withoutUnderscores_snakeCase (isIdentifierChar_of_isIdentifier hn)
  refine ⟨⟨Rust.isIdentifier_snakeName hname, Rust.not_isUppercase_snakeName hname, hloose hname,
    Rust.snakeName_snakeName hname⟩, Rust.routineNames_eq_none hname,
    fun b s => Rust.isRoutineName_routineNames hname,
    fun b s => Go.isRoutineName_routineNames hname, fun other hother => ⟨?_, ?_⟩⟩
  · intro b s b' s' h h' hclash
    have hsnake := Rust.snakeName_eq_of_clash hname hother h h' hclash
    exact ⟨hsnake, by rw [← hloose hname, ← hloose hother, hsnake]⟩
  · intro b s b' s' h h' hclash
    obtain ⟨-, rfl, -⟩ := Go.of_routineNames h
    obtain ⟨-, rfl, -⟩ := Go.of_routineNames h'
    exact Go.tail_eq_of_streamingName hname hother hclash

theorem routineNames_declarable_page :
    isIdentifier "HTMLPage".toList = true ∧ isIdentifier "Html_Page".toList = true ∧
      isIdentifier "hTMLPage".toList = true ∧
      Rust.routineNames "HTMLPage" = some ("html_page", "stream_html_page") ∧
      Rust.routineNames "Html_Page" = some ("html_page", "stream_html_page") ∧
      Go.routineNames "HTMLPage" = some ("HTMLPage", "streamHTMLPage") ∧
      Go.routineNames "hTMLPage" = some ("hTMLPage", "streamHTMLPage") ∧
      Rust.IsRoutineName "html_page" ∧ Go.IsRoutineName "streamHTMLPage" ∧
      withoutUnderscores ("HTMLPage".toList.flatMap lowercase) =
        withoutUnderscores ("Html_Page".toList.flatMap lowercase) ∧
      ∃ c d rest, "HTMLPage".toList = c :: rest ∧ "hTMLPage".toList = d :: rest ∧
        lowercase c = lowercase d := by
  have hname : isIdentifier "HTMLPage".toList = true := by decide
  have hsnake : isIdentifier "Html_Page".toList = true := by decide
  have hfirst : isIdentifier "hTMLPage".toList = true := by decide
  have hrust : Rust.routineNames "HTMLPage" = some ("html_page", "stream_html_page") := by
    decide +kernel
  have hrust' : Rust.routineNames "Html_Page" = some ("html_page", "stream_html_page") := by
    decide +kernel
  have hgo : Go.routineNames "HTMLPage" = some ("HTMLPage", "streamHTMLPage") := by decide +kernel
  have hgo' : Go.routineNames "hTMLPage" = some ("hTMLPage", "streamHTMLPage") := by decide +kernel
  obtain ⟨-, -, hdeclared, hdeclared', hclash⟩ := routineNames_declarable hname
  exact ⟨hname, hsnake, hfirst, hrust, hrust', hgo, hgo', (hdeclared _ _ hrust).1,
    (hdeclared' _ _ hgo).2, ((hclash _ hsnake).1 _ _ _ _ hrust hrust' (.inl rfl)).2,
    (hclash _ hfirst).2 _ _ _ _ hgo hgo' rfl⟩

end Stencil.Dialect
