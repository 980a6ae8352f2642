/-
Names in another case. The case mappings turn no character but a line feed into a line feed, so a
name on one line stays on one line in snake case and with its first character in uppercase. The
characters of identifiers are ASCII, and they are turned into characters of identifiers: an
identifier stays one in snake case, and it has the same letters and digits there, without capitals.
-/
import Stencil.Text.Word

namespace Stencil.Text

/-- What holds of all characters with small numbers, number by number. -/
theorem forall_code_lt {bound : Nat} {P : Char → Prop} (h : ∀ n < bound, P (Char.ofNat n))
    {c : Char} (hc : c.toNat < bound) : P c := by
  have := h c.toNat hc
  rwa [Char.ofNat_toNat] at this

theorem ofNat_ne_feed {n : Nat} (h : 10 < n) : Char.ofNat n ≠ '\n' := by
  intro heq
  have hcode := congrArg Char.toNat heq
  by_cases hvalid : n.isValidChar
  · rw [Char.ofNat, dif_pos hvalid] at hcode
    have : n = 10 := hcode
    omega
  · rw [Char.ofNat, dif_neg hvalid] at hcode
    exact absurd hcode (by decide)

/-- Every character that the tables lead to comes after the line feed. -/
def MapsPastFeed (expansions : List (Nat × List Nat)) (shifts : List Shift) : Prop :=
  (∀ e ∈ expansions, ∀ n ∈ e.2, 10 < n) ∧ ∀ r ∈ shifts, 10 < r.first + r.distance

instance (expansions : List (Nat × List Nat)) (shifts : List Shift) :
    Decidable (MapsPastFeed expansions shifts) :=
  inferInstanceAs (Decidable (_ ∧ _))

theorem feed_not_mem_mapCase {expansions : List (Nat × List Nat)} {shifts : List Shift}
    (h : MapsPastFeed expansions shifts) {c : Char} (hc : c ≠ '\n') :
    '\n' ∉ mapCase expansions shifts c := by
  unfold mapCase
  split
  · next ns hlookup =>
    obtain ⟨before, after, hsplit, -⟩ := List.lookup_eq_some_iff.mp hlookup
    have hmem : (c.toNat, ns) ∈ expansions := by simp [hsplit]
    intro hfeed
    obtain ⟨n, hn, heq⟩ := List.mem_map.mp hfeed
    exact ofNat_ne_feed (h.1 _ hmem n hn) heq
  · split
    · next r hfind =>
      have hfirst : r.first ≤ c.toNat := by
        have := List.find?_some hfind
        simp only [Stride.contains, Bool.and_eq_true, decide_eq_true_eq] at this
        exact this.1.1
      have hpast := h.2 r (List.mem_of_find?_eq_some hfind)
      have hne := ofNat_ne_feed (n := Int.toNat (c.toNat + r.distance)) (by omega)
      simpa using fun heq => hne heq.symm
    · simpa using fun heq => hc heq.symm

theorem feed_not_mem_lowercase {c : Char} (hc : c ≠ '\n') : '\n' ∉ lowercase c := by
  unfold lowercase
  split
  · next hascii =>
    have hlower : c ≠ '\n' → c.toLower ≠ '\n' :=
      forall_code_lt (P := fun c => c ≠ '\n' → c.toLower ≠ '\n') (by decide +kernel) hascii
    simpa using fun heq => hlower hc heq.symm
  · exact feed_not_mem_mapCase (by decide +kernel) hc

theorem feed_not_mem_uppercase {c : Char} (hc : c ≠ '\n') : '\n' ∉ uppercase c := by
  unfold uppercase
  split
  · next hascii =>
    have hupper : c ≠ '\n' → c.toUpper ≠ '\n' :=
      forall_code_lt (P := fun c => c ≠ '\n' → c.toUpper ≠ '\n') (by decide +kernel) hascii
    simpa using fun heq => hupper hc heq.symm
  · exact feed_not_mem_mapCase (by decide +kernel) hc

theorem feed_not_mem_snakeCase {cs : List Char} (h : '\n' ∉ cs) : '\n' ∉ snakeCase cs := by
  unfold snakeCase
  generalize none = previous
  induction cs generalizing previous with
  | nil => simp [snakeCaseAfter]
  | cons c cs ih =>
    simp only [List.mem_cons, not_or] at h
    have hlower : '\n' ∉ lowercase c := feed_not_mem_lowercase (Ne.symm h.1)
    have hrest := ih h.2 (some c)
    simp only [snakeCaseAfter]
    split
    · split
      · simp [hlower, hrest]
      · simp [hlower, hrest]
    · simp [h.1, hrest]

theorem feed_not_mem_capitalize {cs : List Char} (h : '\n' ∉ cs) : '\n' ∉ capitalize cs := by
  cases cs with
  | nil => exact h
  | cons c cs =>
    simp only [List.mem_cons, not_or] at h
    have hupper : '\n' ∉ uppercase c := feed_not_mem_uppercase (Ne.symm h.1)
    simp [capitalize, hupper, h.2]

theorem isIdentifierChar_of_isIdentifier {cs : List Char} (h : isIdentifier cs = true) :
    ∀ c ∈ cs, isIdentifierChar c = true := by
  cases cs with
  | nil => simp
  | cons c cs =>
    simp only [isIdentifier, Bool.and_eq_true, List.all_eq_true] at h
    rw [List.forall_mem_cons]
    refine ⟨?_, h.2⟩
    have := h.1
    simp only [Bool.or_eq_true] at this
    simp only [isIdentifierChar, Char.isAlphanum, Bool.or_eq_true]
    rcases this with hc | hc
    · exact .inl (.inl hc)
    · exact .inr hc

theorem code_lt_of_isIdentifierChar {c : Char} (h : isIdentifierChar c = true) : c.toNat < 128 := by
  delta isIdentifierChar Char.isAlphanum Char.isAlpha Char.isUpper Char.isLower Char.isDigit at h
  simp only [Bool.or_eq_true, Bool.and_eq_true, decide_eq_true_eq, beq_iff_eq] at h
  rcases h with ((h | h) | h) | rfl
  · exact Nat.lt_of_le_of_lt h.2 (by decide)
  · exact Nat.lt_of_le_of_lt h.2 (by decide)
  · exact Nat.lt_of_le_of_lt h.2 (by decide)
  · decide

/-- The lowercase form of a character of identifiers. -/
theorem lower_of_isIdentifierChar {c : Char} (h : isIdentifierChar c = true) :
    lowercase c = [c.toLower] ∧ isIdentifierChar c.toLower = true ∧
      isUppercase c.toLower = false ∧ (isUppercase c = false → c.toLower = c) := by
  have hascii := code_lt_of_isIdentifierChar h
  refine ⟨if_pos hascii, ?_⟩
  exact forall_code_lt (P := fun c => isIdentifierChar c = true →
    isIdentifierChar c.toLower = true ∧ isUppercase c.toLower = false ∧
      (isUppercase c = false → c.toLower = c)) (by decide +kernel) hascii h

/-- The uppercase form of a character of identifiers. -/
theorem upper_of_isIdentifierChar {c : Char} (h : isIdentifierChar c = true) :
    uppercase c = [c.toUpper] ∧ isIdentifierChar c.toUpper = true ∧
      c.toUpper.toLower = c.toLower := by
  have hascii := code_lt_of_isIdentifierChar h
  refine ⟨if_pos hascii, ?_⟩
  exact forall_code_lt (P := fun c => isIdentifierChar c = true →
    isIdentifierChar c.toUpper = true ∧ c.toUpper.toLower = c.toLower) (by decide +kernel) hascii h

theorem forall_mem_capitalize {cs : List Char} (h : ∀ c ∈ cs, isIdentifierChar c = true) :
    ∀ d ∈ capitalize cs, isIdentifierChar d = true := by
  cases cs with
  | nil => exact h
  | cons c cs =>
    rw [List.forall_mem_cons] at h
    obtain ⟨hupper, hchar, -⟩ := upper_of_isIdentifierChar h.1
    rw [capitalize, hupper, List.singleton_append, List.forall_mem_cons]
    exact ⟨hchar, h.2⟩

/-! ## Snake case of identifiers -/

/-- A character of an identifier is written in lowercase, behind an underscore if it begins a
word. The first one does not. -/
theorem snakeCaseAfter_cons {c : Char} (hc : isIdentifierChar c = true) (previous : Option Char)
    (cs : List Char) : ∃ lead, (lead = [] ∨ lead = ['_'] ∧ previous.isSome = true) ∧
      snakeCaseAfter previous (c :: cs) = lead ++ c.toLower :: snakeCaseAfter (some c) cs := by
  obtain ⟨hlower, -, -, hkeep⟩ := lower_of_isIdentifierChar hc
  rw [snakeCaseAfter, hlower]
  split
  · split
    · next hbegins =>
      refine ⟨['_'], .inr ⟨rfl, ?_⟩, rfl⟩
      cases previous with
      | none => cases hbegins
      | some p => rfl
    · exact ⟨[], .inl rfl, rfl⟩
  · next hnot =>
    rw [hkeep (Bool.eq_false_iff.mpr hnot)]
    exact ⟨[], .inl rfl, rfl⟩

/-- Each character of a snake case is an underscore or a lowercase form. -/
theorem forall_mem_snakeCase {cs : List Char} (h : ∀ c ∈ cs, isIdentifierChar c = true) :
    ∀ d ∈ snakeCase cs, isIdentifierChar d = true ∧ isUppercase d = false := by
  unfold snakeCase
  generalize none = previous
  induction cs generalizing previous with
  | nil => simp [snakeCaseAfter]
  | cons c cs ih =>
    rw [List.forall_mem_cons] at h
    obtain ⟨-, hchar, hcapital, -⟩ := lower_of_isIdentifierChar h.1
    obtain ⟨lead, hlead, heq⟩ := snakeCaseAfter_cons h.1 previous cs
    have hunderscore : isIdentifierChar '_' = true ∧ isUppercase '_' = false := by decide
    rw [heq, List.forall_mem_append, List.forall_mem_cons]
    refine ⟨?_, ⟨hchar, hcapital⟩, ih h.2 (some c)⟩
    rcases hlead with rfl | ⟨rfl, -⟩ <;> simp [hunderscore]

/-- A text without capitals is its own snake case. -/
theorem snakeCase_of_not_isUppercase {cs : List Char} (h : ∀ c ∈ cs, isUppercase c = false) :
    snakeCase cs = cs := by
  unfold snakeCase
  generalize none = previous
  induction cs generalizing previous with
  | nil => rfl
  | cons c cs ih =>
    rw [List.forall_mem_cons] at h
    rw [snakeCaseAfter, h.1, ih h.2]
    rfl

/-- A text without its underscores. -/
def withoutUnderscores (cs : List Char) : List Char := cs.filter (· != '_')

/-- Snake case changes capitals and underscores, and nothing else. -/
theorem withoutUnderscores_snakeCase {cs : List Char} (h : ∀ c ∈ cs, isIdentifierChar c = true) :
    withoutUnderscores (snakeCase cs) = withoutUnderscores (cs.flatMap lowercase) := by
  unfold snakeCase
  generalize none = previous
  induction cs generalizing previous with
  | nil => rfl
  | cons c cs ih =>
    rw [List.forall_mem_cons] at h
    obtain ⟨hlower, -⟩ := lower_of_isIdentifierChar h.1
    obtain ⟨lead, hlead, heq⟩ := snakeCaseAfter_cons h.1 previous cs
    have hrest := ih h.2 (some c)
    unfold withoutUnderscores at hrest ⊢
    have hdropped : lead.filter (· != '_') = [] := by rcases hlead with rfl | ⟨rfl, -⟩ <;> rfl
    rw [heq, List.flatMap_cons, hlower, List.filter_append, hdropped, List.nil_append,
      List.singleton_append, List.filter_cons, List.filter_cons, hrest]

theorem isIdentifier_snakeCase {cs : List Char} (h : isIdentifier cs = true) :
    isIdentifier (snakeCase cs) = true := by
  have hchars := isIdentifierChar_of_isIdentifier h
  have hsnake := forall_mem_snakeCase hchars
  cases cs with
  | nil => cases h
  | cons c cs =>
    have hc := hchars c List.mem_cons_self
    obtain ⟨lead, hlead, heq⟩ := snakeCaseAfter_cons hc none cs
    obtain rfl : lead = [] := by simpa using hlead
    rw [List.nil_append] at heq
    rw [snakeCase, heq, List.forall_mem_cons] at hsnake
    have hfirst : (c.isAlpha || c == '_') = true → (c.toLower.isAlpha || c.toLower == '_') = true :=
      forall_code_lt (P := fun c => (c.isAlpha || c == '_') = true →
        (c.toLower.isAlpha || c.toLower == '_') = true) (by decide +kernel)
        (code_lt_of_isIdentifierChar hc)
    rw [isIdentifier, Bool.and_eq_true] at h
    rw [snakeCase, heq, isIdentifier, hfirst h.1, Bool.true_and, List.all_eq_true]
    exact fun d hd => (hsnake.2 d hd).1

end Stencil.Text
