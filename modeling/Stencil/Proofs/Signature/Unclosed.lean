/-
Parameter lists that are not closed. A signature is refused as not closed if no parenthesis is
reported for its list, or if the list that a reported one ends cannot be split.

`closingParen?_reported`: the second happens just if the parenthesis that is reported is in a literal
or after a backslash. Then it closes nothing, and a bracket of another kind has closed the list
before, as in `A(]\)` (`escaped_paren_reported`). Every other parenthesis that is reported closes the
list, and the list is split.
-/
import Stencil.Proofs.Nesting.Closing
import Stencil.Proofs.Signature.Reading

namespace Stencil

open Text Nesting

namespace Signature

variable {cs : List Char} {k : Cut}

theorem parseRest_of_closeGroup? (name : String) (h : closeGroup? cs = some k) :
    parseRest name cs =
      if !allBlank k.after then .error (.afterParameterList (String.ofList (trim k.after)) name)
      else if allBlank k.before then .ok (⟨name, []⟩, [.emptyParentheses])
      else (parseParameters name k.before).map fun ps => (⟨name, ps⟩, []) := by
  obtain rfl := eq_of_closeGroup? h
  simp only [parseRest, h]
  cases parseParameters name k.before <;> rfl

/-- A list that is split is not refused as not closed. -/
theorem parseParameters_ne_open (name component : String) (h : splitTopLevel? cs ',' ≠ none) :
    parseParameters name cs ≠ .error (.openParameterList component) := by
  obtain ⟨parts, hparts⟩ := Option.ne_none_iff_exists'.mp h
  simp only [parseParameters, hparts]
  intro herror
  obtain ⟨part, -, hpart⟩ := Lists.mem_of_mapM_eq_error herror
  unfold Parameter.parse at hpart
  dsimp only at hpart
  split at hpart <;> cases hpart

theorem parseRest_ne_open (name : String) {component : String} (hgroup : closeGroup? cs = some k)
    (hrun : start.run k.before = start) :
    parseRest name cs ≠ .error (.openParameterList component) := by
  rw [parseRest_of_closeGroup? name hgroup]
  split
  · rintro ⟨⟩
  split
  · rintro ⟨⟩
  have hparameters := parseParameters_ne_open name component (splitTopLevel?_ne_none hrun ',')
  cases hresult : parseParameters name k.before with
  | ok ps => rintro ⟨⟩
  | error f =>
    rintro ⟨⟩
    exact hparameters hresult

theorem parseRest_eq_open (name : String) (hgroup : closeGroup? cs = some k)
    (hliteral : (start.run k.before).inLiteral = true) (hearly : ClosedEarly k.before)
    (hafter : allBlank k.after = true) :
    parseRest name cs = .error (.openParameterList name) := by
  rw [parseRest_of_closeGroup? name hgroup, hafter, hearly.not_blank]
  simp only [parseParameters, splitTopLevel?_eq_none hliteral]
  rfl

/-- **The parenthesis that is reported for a list closes it, or is in a literal behind its end.** In
the first case the list can be split, and a signature with this list is not refused as not closed. In
the second it cannot be split, and the signature is refused although a parenthesis was reported. -/
theorem closingParen?_reported {cs : List Char} {n : Nat} (h : closingParen? cs = some n) :
    ∃ inner after, cs = '(' :: (inner ++ ')' :: after) ∧ n = byteLength ('(' :: inner) ∧
      ((start.run ('(' :: inner) = within 1 ∧ start.run inner = start ∧
          (∀ c, splitTopLevel? inner c ≠ none) ∧
          ∀ text component, afterName text = cs →
            parse text ≠ .error (.openParameterList component)) ∨
        ((start.run ('(' :: inner)).inLiteral = true ∧ (start.run ('(' :: inner)).depth = 0 ∧
          ClosedEarly inner ∧ (∀ c, splitTopLevel? inner c = none) ∧
          ∀ text, afterName text = cs → isIdentifier (leadingName text) = true →
            allBlank after = true →
              parse text = .error (.openParameterList (String.ofList (leadingName text))))) := by
  obtain ⟨k, hgroup, rfl⟩ := Option.map_eq_some_iff.mp h
  refine ⟨k.before, k.after, ?_, rfl, ?_⟩
  · rw [← delimiter_of_closeGroup? hgroup]
    exact eq_of_closeGroup? hgroup
  rcases outcome_of_closeGroup? hgroup with hrun | ⟨hliteral, hdepth, hearly⟩
  · have hinner := run_eq_start hrun
    refine .inl ⟨hrun, hinner, splitTopLevel?_ne_none hinner, ?_⟩
    rintro text component rfl
    rw [parse_eq]
    split
    · exact parseRest_ne_open _ hgroup hinner
    · rintro ⟨⟩
  · have hinner : (start.run k.before).inLiteral = true := by rwa [run_paren] at hliteral
    refine .inr ⟨hliteral, hdepth, hearly, splitTopLevel?_eq_none hinner, ?_⟩
    rintro text rfl hname hafter
    rw [parse_eq, if_pos hname]
    exact parseRest_eq_open _ hgroup hinner hearly hafter

/-- A call with a parenthesis in a string. No bracket of another kind closes the group. -/
theorem closingParen?_reported_call : closingParen? "(a, f(\")\")) b".toList = some 10 ∧
    ∃ inner after, "(a, f(\")\")) b".toList = '(' :: (inner ++ ')' :: after) ∧
      start.run inner = start ∧ splitTopLevel? inner ',' ≠ none := by
  have h : closingParen? "(a, f(\")\")) b".toList = some 10 := by decide
  obtain ⟨inner, after, hcs, -, ⟨-, hinner, hsplit, -⟩ | ⟨-, -, hearly, -⟩⟩ :=
    closingParen?_reported h
  · exact ⟨h, inner, after, hcs, hinner, hsplit ','⟩
  · obtain ⟨front, closing, back, rfl, -, hclosing, hne⟩ := hearly
    have hparens : "(a, f(\")\")) b".toList.all (fun c => !isClosing c || c == ')') = true := by
      decide
    have := List.all_eq_true.mp hparens closing (by rw [hcs]; simp)
    simp [hclosing, hne] at this

/-- A parenthesis after a backslash is reported: the bracket before it has closed the group. -/
theorem escaped_paren_reported : closingParen? "(]\\)".toList = some 3 ∧
    (start.run "(]\\".toList).escaped = true ∧ (start.run "(]\\".toList).depth = 0 ∧
      splitTopLevel? "]\\".toList ',' = none ∧
      parse "A(]\\)" = .error (.openParameterList "A") := by
  decide

end Signature

end Stencil
