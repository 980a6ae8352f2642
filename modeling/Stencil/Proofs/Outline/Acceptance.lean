/-
Which sources have an arena, and where the others go wrong. A policy accepts counts of tabs: the
first is zero, and each next one goes at most one further in than the one before, and under the
stricter policy at most one further out. The builder never looks at the line before; that it goes
on just as long as the policy accepts the tabs read so far is what its two places say about the
last line (`Builder.Sound`).

`parse_outcome`: a source has an arena exactly when the policy accepts the tabs of its non-blank
lines, and otherwise the error is the first non-blank line with which they stop being accepted.
-/
import Mathlib.Data.List.Chain
import Stencil.Proofs.Lists
import Stencil.Proofs.Outline.Arena
import Stencil.Proofs.Outline.Lines

namespace Stencil

/-! ## Counts of tabs -/

/-- The tabs that a line starts with. -/
def leadingTabs (cs : List Char) : Nat := (cs.takeWhile (· == '\t')).length

/-- The leading tabs of the lines that are not blank. -/
def tabCounts (ls : List (List Char)) : List Nat :=
  (ls.filter fun cs => !Text.allBlank cs).map leadingTabs

namespace DedentPolicy

/-- A line with `next` tabs may follow one with `previous` tabs. -/
def Allows (policy : DedentPolicy) (previous next : Nat) : Prop :=
  next ≤ previous + 1 ∧ (policy = .singleLevel → previous ≤ next + 1)

instance (policy : DedentPolicy) : DecidableRel policy.Allows :=
  fun _ _ => inferInstanceAs (Decidable (_ ∧ _))

/-- The first line has no tabs, and each line may follow the one before it. -/
def Accepts (policy : DedentPolicy) (tabs : List Nat) : Prop :=
  (∀ t ∈ tabs.head?, t = 0) ∧ tabs.IsChain policy.Allows

instance (policy : DedentPolicy) (tabs : List Nat) : Decidable (policy.Accepts tabs) :=
  inferInstanceAs (Decidable (_ ∧ _))

variable {policy : DedentPolicy}

theorem accepts_nil : policy.Accepts [] := ⟨by simp, .nil⟩

/-- The last count of tabs, `-1` when there is none. -/
def lastTabs (tabs : List Nat) : Int := tabs.getLast?.elim (-1) fun t => t

theorem lastTabs_concat (tabs : List Nat) (t : Nat) : lastTabs (tabs ++ [t]) = t := by
  simp [lastTabs]

/-- One more line is accepted when it fits behind the last one. -/
theorem accepts_concat {tabs : List Nat} {t : Nat} : policy.Accepts (tabs ++ [t]) ↔
    policy.Accepts tabs ∧ Arena.Fits policy (lastTabs tabs) t := by
  cases h : tabs.getLast? with
  | none =>
    have hfits : Arena.Fits policy (-1) t ↔ t = 0 :=
      ⟨fun hfits => by have := hfits.1; omega, fun ht => ⟨by omega, fun _ => by omega⟩⟩
    rw [List.getLast?_eq_none_iff.mp h, show lastTabs [] = -1 from rfl, hfits]
    simp [Accepts]
  | some last =>
    obtain ⟨front, rfl⟩ := List.getLast?_eq_some_iff.mp h
    have hhead : (front ++ [last] ++ [t]).head? = (front ++ [last]).head? := by
      rw [List.head?_append_of_ne_nil _ (by simp)]
    have hfits : Arena.Fits policy (lastTabs (front ++ [last])) t ↔ policy.Allows last t := by
      rw [lastTabs_concat]
      exact and_congr (by omega) (imp_congr_right fun _ => by omega)
    simp only [Accepts, hhead, hfits, @List.isChain_append _ _ (front ++ [last])]
    simp [and_assoc]

end DedentPolicy

open DedentPolicy

/-- The indentation of the block that holds the last line, `-1` when there is no line. -/
def openBlockIndent (tabs : List Nat) : Int :=
  match tabs.getLast? with
  | none => -1
  | some t => (t : Int) - 1

theorem tabCounts_concat_of_blank {cs : List Char} (h : Text.allBlank cs = true)
    (ls : List (List Char)) : tabCounts (ls ++ [cs]) = tabCounts ls := by
  simp [tabCounts, h]

theorem tabCounts_concat {cs : List Char} (h : Text.allBlank cs = false)
    (ls : List (List Char)) : tabCounts (ls ++ [cs]) = tabCounts ls ++ [leadingTabs cs] := by
  simp [tabCounts, h]

/-- Lines whose tabs are not accepted have a first one that is to blame, and it is not blank. -/
theorem accepts_or_exists_first (policy : DedentPolicy) (ls : List (List Char)) :
    policy.Accepts (tabCounts ls) ∨
      ∃ before cs after, ls = before ++ cs :: after ∧ Text.allBlank cs = false ∧
        policy.Accepts (tabCounts before) ∧ ¬ policy.Accepts (tabCounts (before ++ [cs])) := by
  have hfirst := Lists.holds_or_exists_first (P := fun ls => policy.Accepts (tabCounts ls))
    accepts_nil ls
  refine hfirst.imp_right fun ⟨before, cs, after, hls, hbefore, hcs⟩ => ?_
  refine ⟨before, cs, after, hls, Bool.eq_false_iff.mpr fun hblank => hcs ?_, hbefore, hcs⟩
  rwa [tabCounts_concat_of_blank hblank]

/-! ## Lines and what they are read from -/

theorem map_indent_contentFrom (number : Nat) (ls : List (List Char)) :
    (contentFrom number ls).map Line.indent = tabCounts ls := by
  induction ls generalizing number with
  | nil => rfl
  | cons cs ls ih =>
    cases hblank : Text.allBlank cs with
    | true =>
      rw [contentFrom_cons_of_blank hblank, ih]
      simp [tabCounts, hblank]
    | false =>
      rw [contentFrom_cons hblank, List.map_cons, ih]
      simp [tabCounts, hblank, leadingTabs, Line.ofChars]

namespace Arena

/-! ## Runs of the builder -/

namespace Builder

variable {policy : DedentPolicy}

/-- **Lines whose tabs are accepted are all taken in**, and the builder knows the tabs of the last
one. -/
theorem addAll_of_accepts {lines : List Line} (h : policy.Accepts (lines.map Line.indent)) :
    ∃ b, start.addAll policy lines = .ok b ∧ b.Sound ∧
      b.previous = lastTabs (lines.map Line.indent) := by
  induction lines using List.reverseRecOn with
  | nil => exact ⟨start, rfl, sound_start, rfl⟩
  | append_singleton lines line ih =>
    rw [List.map_append, List.map_singleton] at h ⊢
    obtain ⟨hlines, hfits⟩ := accepts_concat.mp h
    obtain ⟨b, hb, hsound, hprevious⟩ := ih hlines
    rw [← hprevious] at hfits
    obtain ⟨block, hadd, hnearest⟩ := hsound.add_of_fits hfits
    refine ⟨b.enter block line, ?_, hsound.enter hnearest, ?_⟩
    · rw [addAll_append hb, addAll, hadd]
      rfl
    · rw [lastTabs_concat, previous_enter hnearest.1]

/-- The builder knows the block of the last line. -/
theorem Sound.indentAt_block_eq {b : Builder} (h : b.Sound) {tabs : List Nat}
    (hprevious : b.previous = lastTabs tabs) :
    b.arena.indentAt b.block = openBlockIndent tabs := by
  unfold lastTabs at hprevious
  unfold openBlockIndent
  cases hlast : tabs.getLast? with
  | none =>
    rw [hlast, Option.elim_none] at hprevious
    have := h.indentAt_block
    dsimp only
    omega
  | some t =>
    rw [hlast, Option.elim_some] at hprevious
    have := h.indentAt_block
    dsimp only
    omega

/-- **The first line that is not accepted is the error**, whatever follows it. -/
theorem addAll_of_not_accepts {before after : List Line} {line : Line}
    (hbefore : policy.Accepts (before.map Line.indent))
    (hline : ¬ policy.Accepts (before.map Line.indent ++ [line.indent])) :
    start.addAll policy (before ++ line :: after) =
      .error ⟨line.number, line.indent, openBlockIndent (before.map Line.indent)⟩ := by
  obtain ⟨b, hb, hsound, hprevious⟩ := addAll_of_accepts hbefore
  have hfits : ¬ Fits policy b.previous line.indent := by
    rw [hprevious]
    exact fun hfits => hline (accepts_concat.mpr ⟨hbefore, hfits⟩)
  rw [addAll_append hb, addAll, hsound.add_of_not_fits hfits, hsound.indentAt_block_eq hprevious]

end Builder

/-! ## Whole sources -/

theorem parse_of_accepts {policy : DedentPolicy} {source : String}
    (h : policy.Accepts ((contentLines source).map Line.indent)) :
    ∃ arena, Arena.parse policy source = .ok arena := by
  obtain ⟨b, hb, -⟩ := Builder.addAll_of_accepts h
  refine ⟨b.arena, ?_⟩
  rw [Arena.parse, hb]

theorem parse_eq_error_of_first {policy : DedentPolicy} {source : String}
    {before after : List (List Char)} {cs : List Char}
    (hlines : Text.lines source.toList = before ++ cs :: after)
    (hblank : Text.allBlank cs = false) (hbefore : policy.Accepts (tabCounts before))
    (hcs : ¬ policy.Accepts (tabCounts (before ++ [cs]))) :
    Arena.parse policy source =
      .error ⟨before.length + 1, leadingTabs cs, openBlockIndent (tabCounts before)⟩ := by
  rw [tabCounts_concat hblank] at hcs
  rw [← map_indent_contentFrom 1] at hbefore hcs ⊢
  rw [Arena.parse, contentLines_eq, hlines, contentFrom_append, contentFrom_cons hblank,
    Builder.addAll_of_not_accepts hbefore hcs, Nat.add_comm before.length]
  rfl

/-- A source has an arena exactly when the policy accepts its tabs. -/
theorem exists_parse_iff (policy : DedentPolicy) (source : String) :
    (∃ arena, Arena.parse policy source = .ok arena) ↔
      policy.Accepts (tabCounts (Text.lines source.toList)) := by
  constructor
  · intro ⟨arena, hok⟩
    rcases accepts_or_exists_first policy (Text.lines source.toList) with
      h | ⟨before, cs, after, hlines, hblank, hbefore, hcs⟩
    · exact h
    · rw [parse_eq_error_of_first hlines hblank hbefore hcs] at hok
      cases hok
  · intro h
    rw [← map_indent_contentFrom 1] at h
    exact parse_of_accepts h

/-- **A source has an arena exactly when the policy accepts the tabs of its non-blank lines.**
Otherwise the error is the first non-blank line with which the tabs are not accepted any more: its
number in the source, its tabs, and the indentation of the block that holds the line before. -/
theorem parse_outcome (policy : DedentPolicy) (source : String) :
    ((∃ arena, Arena.parse policy source = .ok arena) ↔
      policy.Accepts (tabCounts (Text.lines source.toList))) ∧
    ∀ e, Arena.parse policy source = .error e ↔
      ∃ before cs after, Text.lines source.toList = before ++ cs :: after ∧
        Text.allBlank cs = false ∧ policy.Accepts (tabCounts before) ∧
        ¬ policy.Accepts (tabCounts (before ++ [cs])) ∧
        e = ⟨before.length + 1, leadingTabs cs, openBlockIndent (tabCounts before)⟩ := by
  refine ⟨exists_parse_iff policy source, fun e => ⟨fun herror => ?_, ?_⟩⟩
  · rcases accepts_or_exists_first policy (Text.lines source.toList) with
      h | ⟨before, cs, after, hlines, hblank, hbefore, hcs⟩
    · obtain ⟨arena, hok⟩ := (exists_parse_iff policy source).mpr h
      rw [hok] at herror
      cases herror
    · rw [parse_eq_error_of_first hlines hblank hbefore hcs] at herror
      cases herror
      exact ⟨before, cs, after, hlines, hblank, hbefore, hcs, rfl⟩
  · intro ⟨before, cs, after, hlines, hblank, hbefore, hcs, he⟩
    rw [parse_eq_error_of_first hlines hblank hbefore hcs, he]

example : Arena.parse .singleLevel "a\n\tb\n\n\t\tc\nd" = .error ⟨5, 0, 1⟩ := rfl

end Arena

end Stencil
