/-
Where a group ends. The parenthesis that is reported for a group is met in one of two states
(`outcome_of_closeGroup?`). Outside every literal and inside one group it closes that group, and what
stands before it is read as a text of its own. In a literal or after a backslash it closes nothing,
and it is reported all the same if no group is open there: the group was closed before, by a bracket
of another kind.
-/
import Stencil.Proofs.Nesting.Cuts
import Stencil.Proofs.Nesting.Grammar

namespace Stencil.Nesting

variable {s : Nesting} {c : Char} {cs inner : List Char} {k : Cut}

/-- Groups stay open, except that a closing bracket closes the only one. -/
theorem depth_feed_pos (hdepth : 0 < s.depth) (c : Char) :
    0 < (s.feed c).depth ∨ s = within 1 ∧ isClosing c = true := by
  change 0 < (s.step c).1.depth ∨ _
  fun_cases step s c with
  | case1 | case2 | case3 | case4 | case5 | case6 | case9 => exact .inl hdepth
  | case7 => exact .inl (Int.lt_add_one_of_le (Int.le_of_lt hdepth))
  | case8 hescaped _ _ hstring _ hchar _ hclosing =>
    by_cases hone : s.depth = 1
    · have hliteral : s.inLiteral = false := by simp [inLiteral, hescaped, hstring, hchar]
      refine .inr ⟨?_, hclosing⟩
      rw [eq_of_not_inLiteral hliteral, hone]
      rfl
    · refine .inl ?_
      change 0 < s.depth - 1
      omega

/-- A parenthesis after which no group is open closes the only one, or is in a literal. -/
theorem eq_within_or_inLiteral (hdepth : (s.feed ')').depth = 0) :
    s = within 1 ∨ s.inLiteral = true ∧ s.depth = 0 := by
  cases hliteral : s.inLiteral with
  | true => exact .inr ⟨rfl, by rwa [(feed_of_inLiteral hliteral _).1] at hdepth⟩
  | false =>
    have hs := eq_of_not_inLiteral hliteral
    rw [hs] at hdepth
    have hone : s.depth = 1 := by
      change s.depth - 1 = 0 at hdepth
      omega
    rw [hs, hone]
    exact .inl rfl

/-! ## The parenthesis that is reported -/

theorem delimiter_of_closeFrom (h : s.closeFrom cs = some k) :
    k.delimiter = ')' ∧ ((s.run k.before).feed ')').depth = 0 := by
  induction cs generalizing s k with
  | nil => cases h
  | cons c cs ih =>
    rw [closeFrom] at h
    split at h
    · next hstop =>
      simp only [Bool.and_eq_true, beq_iff_eq] at hstop
      obtain ⟨⟨rfl, hdepth⟩, -⟩ := hstop
      cases h
      exact ⟨rfl, hdepth⟩
    · obtain ⟨k', hk, rfl⟩ := Option.map_eq_some_iff.mp h
      exact (ih hk :)

/-- A bracket of another kind closes the group that the text stands in. -/
def ClosedEarly (inner : List Char) : Prop :=
  ∃ front closing back, inner = front ++ closing :: back ∧ start.run front = start ∧
    isClosing closing = true ∧ closing ≠ ')'

theorem ClosedEarly.not_blank (h : ClosedEarly cs) : Text.allBlank cs = false := by
  obtain ⟨front, closing, back, rfl, -, hclosing, -⟩ := h
  rw [← Bool.not_eq_true]
  intro hblank
  have := List.all_eq_true.mp hblank closing (by simp)
  simp only [isClosing, Bool.or_eq_true, beq_iff_eq] at hclosing
  rcases hclosing with (rfl | rfl) | rfl <;> exact absurd this (by decide)

/-- The group that is open at first is open up to the parenthesis that is reported, or another
bracket closes it. -/
theorem within_or_closed_of_closeFrom (hdepth : 0 < s.depth) (h : s.closeFrom cs = some k) :
    s.run k.before = within 1 ∨ ∃ front closing back, k.before = front ++ closing :: back ∧
      s.run front = within 1 ∧ isClosing closing = true ∧ closing ≠ ')' := by
  induction cs generalizing s k with
  | nil => cases h
  | cons c cs ih =>
    rw [closeFrom] at h
    split at h
    · next hstop =>
      simp only [Bool.and_eq_true, beq_iff_eq] at hstop
      cases h
      refine .inl ((depth_feed_pos hdepth c).resolve_left ?_).1
      rw [hstop.1.2]
      exact Int.lt_irrefl 0
    · next hnot =>
      obtain ⟨k', hk, rfl⟩ := Option.map_eq_some_iff.mp h
      rcases depth_feed_pos hdepth c with hfeed | ⟨rfl, hclosing⟩
      · rcases ih hfeed hk with hrun | ⟨front, closing, back, heq, hrun, hclosing⟩
        · exact .inl hrun
        · exact .inr ⟨c :: front, closing, back, congrArg (c :: ·) heq, hrun, hclosing⟩
      · -- The bracket closes the group, so it was not a parenthesis: that would have been reported.
        refine .inr ⟨[], c, k'.before, rfl, rfl, hclosing, ?_⟩
        rintro rfl
        exact hnot rfl

theorem run_paren (inner : List Char) : start.run ('(' :: inner) = (start.run inner).deepen :=
  run_deepen start inner

theorem deepen_injective {t : Nesting} (h : s.deepen = t.deepen) : s = t := by
  obtain ⟨inString, inChar, depth, escaped⟩ := s
  obtain ⟨inString', inChar', depth', escaped'⟩ := t
  simpa [deepen] using h

theorem run_eq_start (h : start.run ('(' :: inner) = within 1) : start.run inner = start :=
  deepen_injective ((run_paren inner).symm.trans h)

theorem delimiter_of_closeGroup? (h : closeGroup? cs = some k) : k.delimiter = ')' := by
  unfold closeGroup? at h
  split at h
  · exact (delimiter_of_closeFrom h).1
  · cases h

/-- **The parenthesis that is reported closes the group, or is in a literal behind its end.** -/
theorem outcome_of_closeGroup? (h : closeGroup? cs = some k) :
    start.run ('(' :: k.before) = within 1 ∨
      (start.run ('(' :: k.before)).inLiteral = true ∧ (start.run ('(' :: k.before)).depth = 0 ∧
        ClosedEarly k.before := by
  unfold closeGroup? at h
  split at h
  · next rest =>
    have hopen : 0 < (start.feed '(').depth := by decide
    rcases eq_within_or_inLiteral (delimiter_of_closeFrom h).2 with hrun | ⟨hliteral, hdepth⟩
    · exact .inl hrun
    · refine .inr ⟨hliteral, hdepth, ?_⟩
      rcases within_or_closed_of_closeFrom hopen h with hrun |
        ⟨front, closing, back, heq, hrun, hclosing⟩
      · rw [hrun] at hliteral
        cases hliteral
      · exact ⟨front, closing, back, heq, run_eq_start hrun, hclosing⟩
  · cases h

end Stencil.Nesting
