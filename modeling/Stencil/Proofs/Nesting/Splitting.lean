/-
Splitting and joining are inverse. A text is whole for a separator if it leads the reader back to
where it started and every separator in it is inside something.

`split_join_inverse`: joining the parts of a text gives the text back, whole texts that are joined
are split into the same texts again, and the parts of a text that never closes more groups than it
has opened are whole. The last needs the condition: with more groups closed than opened, a separator
is inside nothing although the reader is not where it started.
-/
import Mathlib.Data.List.Infix
import Stencil.Proofs.Nesting.Cuts
import Stencil.Proofs.Nesting.Grammar

namespace Stencil.Nesting

variable {s : Nesting} {c separator : Char} {cs : List Char} {parts : List (List Char)}

/-! ## Whole texts -/

/-- Nothing is found exactly if everything that is looked for is inside something. -/
theorem findFrom_eq_none_iff {delimiters : List Char} :
    s.findFrom delimiters cs = none ↔ ∀ front c back, cs = front ++ c :: back →
      c ∈ delimiters → (s.run front).covers c = true := by
  induction cs generalizing s with
  | nil => simp [findFrom]
  | cons d cs ih =>
    rw [findFrom]
    split
    · next hfound =>
      simp only [Bool.and_eq_true, Bool.not_eq_true', List.contains_iff_mem] at hfound
      refine iff_of_false (by simp) fun h => ?_
      have := h [] d cs rfl hfound.2
      rw [run_nil, hfound.1] at this
      cases this
    · next hnot =>
      simp only [Bool.and_eq_true, Bool.not_eq_true', List.contains_iff_mem, not_and] at hnot
      rw [Option.map_eq_none_iff, ih]
      constructor
      · intro h front c back heq hmem
        cases front with
        | nil =>
          cases heq
          simpa [run_nil] using mt hnot (not_not_intro hmem)
        | cons e front =>
          cases heq
          exact h front c back rfl hmem
      · intro h front c back heq hmem
        exact h (d :: front) c back (by rw [heq, List.cons_append]) hmem

/-- Read from the start, the text leads back to the start, and every separator in it is inside
something. -/
structure Whole (separator : Char) (cs : List Char) : Prop where
  run_start : start.run cs = start
  covered : ∀ front back, cs = front ++ separator :: back →
    (start.run front).covers separator = true

theorem whole_iff : Whole separator cs ↔
    start.run cs = start ∧ findDelimiter? cs [separator] = none := by
  rw [findDelimiter?, findFrom_eq_none_iff]
  constructor
  · rintro ⟨hrun, hcovered⟩
    refine ⟨hrun, fun front c back heq hmem => ?_⟩
    obtain rfl := List.mem_singleton.mp hmem
    exact hcovered front back heq
  · rintro ⟨hrun, hcovered⟩
    exact ⟨hrun, fun front back heq => hcovered front _ back heq (List.mem_singleton_self _)⟩

instance (separator : Char) (cs : List Char) : Decidable (Whole separator cs) :=
  decidable_of_iff _ whole_iff.symm

theorem splitTopLevel?_whole (hsep : separator ∉ specialChars) (hne : parts ≠ [])
    (h : ∀ p ∈ parts, Whole separator p) :
    splitTopLevel? ([separator].intercalate parts) separator = some parts := by
  obtain ⟨p, ps, rfl⟩ := List.exists_cons_of_ne_nil hne
  exact splitTopLevel?_join (isPlain_of_not_mem hsep) p ps fun q hq => whole_iff.mp (h q hq)

/-! ## The parts of a text -/

/-- Nowhere in the text are more groups closed than were opened. -/
def NeverOverclosed (cs : List Char) : Prop := ∀ front ∈ cs.inits, 0 ≤ (start.run front).depth

instance (cs : List Char) : Decidable (NeverOverclosed cs) :=
  inferInstanceAs (Decidable (∀ front ∈ cs.inits, _))

/-- Where a plain character is inside nothing, and no more groups were closed than opened, nothing
is open. -/
theorem eq_start_of_not_covers (hdepth : 0 ≤ s.depth) (hc : c ∉ specialChars)
    (h : s.covers c = false) : s = start := by
  have hliteral : s.inLiteral = false := by
    rw [← Bool.not_eq_true]
    intro hliteral
    rw [(feed_of_inLiteral hliteral c).2] at h
    cases h
  obtain ⟨d, hd⟩ := Int.eq_ofNat_of_zero_le hdepth
  obtain rfl : s = within d := by rw [eq_of_not_inLiteral hliteral, hd]; rfl
  rw [covers, step_plain d hc] at h
  obtain rfl : d = 0 := by simpa using h
  rfl

/-- The first part leads from `s` back to the start, and the others are whole. -/
theorem whole_of_splitFrom (hsep : separator ∉ specialChars) {p : List Char}
    {ps : List (List Char)} (hdepth : ∀ front ∈ cs.inits, 0 ≤ (s.run front).depth)
    (h : s.splitFrom separator cs = some (p :: ps)) :
    s.run p = start ∧ s.findFrom [separator] p = none ∧ ∀ q ∈ ps, Whole separator q := by
  induction cs generalizing s p ps with
  | nil =>
    have hs : 0 ≤ s.depth := hdepth [] (by simp)
    rw [splitFrom] at h
    split at h
    · next hsettled =>
      cases h
      exact ⟨eq_start_of_isSettled hs hsettled, rfl, by simp⟩
    · cases h
  | cons c cs ih =>
    have hs : 0 ≤ s.depth := hdepth [] (by simp)
    have hrest : ∀ front ∈ cs.inits, 0 ≤ ((s.feed c).run front).depth := by
      intro front hfront
      exact hdepth (c :: front) (by simpa using hfront)
    obtain ⟨parts, hparts, heq⟩ := Option.map_eq_some_iff.mp h
    obtain ⟨q, qs, rfl⟩ := List.exists_cons_of_ne_nil (intercalate_of_splitFrom hparts).1
    obtain ⟨hrun, hfind, hqs⟩ := ih hrest hparts
    split at heq
    · next hcut =>
      -- The separator ends the first part here, where the reader is back at the start.
      simp only [Bool.and_eq_true, Bool.not_eq_true', beq_iff_eq] at hcut
      obtain ⟨hcovers, rfl⟩ := hcut
      obtain rfl := eq_start_of_not_covers hs hsep hcovers
      rw [feed_of_isPlain (isPlain_of_not_mem hsep)] at hrun hfind
      cases heq
      exact ⟨rfl, rfl, List.forall_mem_cons.mpr ⟨whole_iff.mpr ⟨hrun, hfind⟩, hqs⟩⟩
    · next hcut =>
      cases heq
      refine ⟨hrun, ?_, hqs⟩
      have hnot : ¬ (!s.covers c && [separator].contains c) = true := by simpa using hcut
      rw [findFrom, if_neg hnot, hfind]
      rfl

theorem whole_of_splitTopLevel? (hsep : separator ∉ specialChars) (hdepth : NeverOverclosed cs)
    (h : splitTopLevel? cs separator = some parts) : ∀ p ∈ parts, Whole separator p := by
  obtain ⟨p, ps, rfl⟩ := List.exists_cons_of_ne_nil (intercalate_of_splitFrom h).1
  obtain ⟨hrun, hfind, hps⟩ := whole_of_splitFrom hsep hdepth h
  exact List.forall_mem_cons.mpr ⟨whole_iff.mpr ⟨hrun, hfind⟩, hps⟩

/-- **Splitting and joining are inverse**, for every separator that is neither a quote nor a
backslash nor a bracket. -/
theorem split_join_inverse (separator : Char) (hsep : separator ∉ specialChars) :
    (∀ cs parts, splitTopLevel? cs separator = some parts →
      parts ≠ [] ∧ [separator].intercalate parts = cs) ∧
    (∀ parts, parts ≠ [] → (∀ p ∈ parts, Whole separator p) →
      splitTopLevel? ([separator].intercalate parts) separator = some parts) ∧
    ∀ cs parts, NeverOverclosed cs → splitTopLevel? cs separator = some parts →
      ∀ p ∈ parts, splitTopLevel? p separator = some [p] := by
  refine ⟨fun cs parts => intercalate_of_splitFrom, fun parts => splitTopLevel?_whole hsep, ?_⟩
  intro cs parts hdepth h p hp
  have hwhole := whole_of_splitTopLevel? hsep hdepth h p hp
  have := splitTopLevel?_whole hsep (List.cons_ne_nil p []) (by simpa using hwhole)
  rwa [List.intercalate_singleton] at this

/-- Split at arrows of three bytes each, of which some are in a string, a character literal, an
escape or a group. -/
theorem split_join_inverse_arrows :
    splitTopLevel? "f(→)→\"→\"+'→'→→\\→".toList '→' =
      some ["f(→)".toList, "\"→\"+'→'".toList, [], "\\→".toList] ∧
    splitTopLevel? "\"→\"+'→'".toList '→' = some ["\"→\"+'→'".toList] := by
  obtain ⟨-, hjoin, hparts⟩ := split_join_inverse '→' (by decide)
  have hsplit := hjoin ["f(→)".toList, "\"→\"+'→'".toList, [], "\\→".toList] (by decide) (by decide)
  exact ⟨hsplit, hparts _ _ (by decide) hsplit _ (by decide)⟩

end Stencil.Nesting
