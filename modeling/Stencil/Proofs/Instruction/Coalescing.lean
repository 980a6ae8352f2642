/-
Coalescing from behind. The loop pushes each instruction onto those before it, and what it does to
them is only to make the last text longer (`coalesceOnto_append`). So a coalesced body is the first
instruction in front of the rest, coalesced: a text is joined with a text that the rest starts with
(`coalesce_literal`), and all else stands by itself. Other modules know coalescing by these
equations, one for each kind of instruction.
-/
import Stencil.Instruction.Coalesce

namespace Stencil.Instructions

/-! ## Pushing texts -/

/-- All that pushing a text can do. -/
theorem pushLiteral_cases (body : Instructions) (text : String) :
    (text = "" ∧ body.pushLiteral text = body) ∨
      (text ≠ "" ∧ body.pushLiteral text = body ++ [.literal text]) ∨
      (text ≠ "" ∧ ∃ front last, body = front ++ [.literal last] ∧
        body.pushLiteral text = front ++ [.literal (last ++ text)]) := by
  unfold pushLiteral
  split
  · next hempty => exact .inl ⟨String.isEmpty_iff.mp hempty, rfl⟩
  · next hempty =>
    have hne : text ≠ "" := by simpa using hempty
    split
    · next last hlast =>
      obtain ⟨front, rfl⟩ := List.getLast?_eq_some_iff.mp hlast
      exact .inr (.inr ⟨hne, front, last, rfl, by rw [List.dropLast_concat]⟩)
    · exact .inr (.inl ⟨hne, rfl⟩)

theorem pushLiteral_concat_literal (front : Instructions) (text more : String) :
    pushLiteral (front ++ [.literal text]) more = front ++ [.literal (text ++ more)] := by
  by_cases hmore : more = "" <;> simp [pushLiteral, hmore]

theorem pushLiteral_concat_expression (front : Instructions) (expr : String) (escape : Bool)
    {text : String} (hne : text ≠ "") :
    pushLiteral (front ++ [.expression expr escape]) text =
      front ++ [.expression expr escape, .literal text] := by
  simp [pushLiteral, hne]

/-- What is pushed onto `out` leaves the instructions in front of it alone: there is one in between,
or no text that could become longer. -/
def Shields (front out : Instructions) : Prop :=
  out ≠ [] ∨ ∀ text, front.getLast? ≠ some (.literal text)

theorem pushLiteral_append {front out : Instructions} (h : Shields front out) (text : String) :
    pushLiteral (front ++ out) text = front ++ pushLiteral out text := by
  by_cases hout : out = []
  · subst hout
    have hlast := h.resolve_left (not_not_intro rfl)
    rw [List.append_nil, pushLiteral, pushLiteral]
    split
    · rw [List.append_nil]
    · split
      · next last heq => exact absurd heq (hlast last)
      · rfl
  · rw [← List.dropLast_concat_getLast hout, ← List.append_assoc]
    cases out.getLast hout <;> by_cases htext : text = "" <;> simp [pushLiteral, htext]

theorem Shields.pushLiteral {front out : Instructions} (h : Shields front out) (text : String) :
    Shields front (out.pushLiteral text) := by
  obtain ⟨-, heq⟩ | ⟨-, heq⟩ | ⟨-, init, last, -, heq⟩ := pushLiteral_cases out text
  · rwa [heq]
  · exact .inl (by simp [heq])
  · exact .inl (by simp [heq])

/-! ## The loop -/

/-- **The loop leaves alone what stands in front of where it pushes.** -/
theorem coalesceOnto_append {front out : Instructions} (h : Shields front out)
    (body : Instructions) : coalesceOnto (front ++ out) body = front ++ coalesceOnto out body := by
  induction body generalizing out with
  | nil => rfl
  | cons i is ih =>
    cases i with
    | literal text =>
      simp only [coalesceOnto]
      rw [pushLiteral_append h, ih (h.pushLiteral text)]
    | expression | control | call =>
      -- From here on there is an instruction in between.
      simp only [coalesceOnto]
      rw [List.append_assoc, ih (.inl (by simp))]

@[simp] theorem coalesceOnto_nil (body : Instructions) : coalesceOnto [] body = body.coalesce := rfl

@[simp] theorem coalesce_nil : coalesce [] = [] := rfl

/-- An instruction that is no text stands by itself, in front of the rest. -/
theorem coalesceOnto_concat {i : Instruction} (h : ∀ text, i ≠ .literal text)
    (out is : Instructions) : coalesceOnto (out ++ [i]) is = out ++ i :: is.coalesce := by
  have hshields : Shields (out ++ [i]) [] := .inr (by simpa using h)
  have hframe := coalesceOnto_append hshields is
  rwa [List.append_nil, List.append_assoc] at hframe

@[simp] theorem coalesce_expression (expr : String) (escape : Bool) (is : Instructions) :
    coalesce (.expression expr escape :: is) = .expression expr escape :: coalesce is :=
  coalesceOnto_concat (i := .expression expr escape) (by simp) [] is

@[simp] theorem coalesce_control (header : Header) (body is : Instructions) :
    coalesce (.control header body :: is) = .control header body.coalesce :: coalesce is :=
  coalesceOnto_concat (i := .control header body.coalesce) (by simp) [] is

@[simp] theorem coalesce_call (name args : String) (is : Instructions) :
    coalesce (.call name args :: is) = .call name args :: coalesce is :=
  coalesceOnto_concat (i := .call name args) (by simp) [] is

/-! ## Texts -/

/-- Puts a text in front of a body, joined with a text that the body starts with. -/
def consLiteral (text : String) (body : Instructions) : Instructions :=
  if text.isEmpty then body
  else
    match body with
    | .literal next :: rest => .literal (text ++ next) :: rest
    | _ => .literal text :: body

theorem consLiteral_append (a b : String) (body : Instructions) :
    consLiteral (a ++ b) body = consLiteral a (consLiteral b body) := by
  by_cases ha : a = ""
  · simp [ha, consLiteral]
  · by_cases hb : b = ""
    · simp [hb, consLiteral]
    · cases body with
      | nil => simp [consLiteral, ha, hb]
      | cons i is => cases i <;> simp [consLiteral, ha, hb, String.append_assoc]

theorem coalesce_literal_of_ne {text : String} (hne : text ≠ "") (is : Instructions) :
    coalesce (.literal text :: is) = coalesceOnto [.literal text] is := by
  have hpush : pushLiteral [] text = [.literal text] := by simp [pushLiteral, hne]
  simp only [coalesce, coalesceOnto, hpush]

/-- A text is joined with a text that the rest starts with. -/
@[simp] theorem coalesce_literal (text : String) (is : Instructions) :
    coalesce (.literal text :: is) = consLiteral text is.coalesce := by
  induction is generalizing text with
  | nil =>
    by_cases htext : text = ""
    · subst htext
      rfl
    · rw [coalesce_literal_of_ne htext]
      simp [coalesceOnto, consLiteral, htext]
  | cons i is ih =>
    by_cases htext : text = ""
    · subst htext
      rfl
    · rw [coalesce_literal_of_ne htext]
      cases i with
      | literal more =>
        have hpush : pushLiteral [.literal text] more = [.literal (text ++ more)] :=
          pushLiteral_concat_literal [] text more
        have hne : text ++ more ≠ "" := by simp [htext]
        calc coalesceOnto [.literal text] (.literal more :: is)
            = coalesceOnto [.literal (text ++ more)] is := by simp only [coalesceOnto, hpush]
          _ = consLiteral (text ++ more) (coalesce is) := by rw [← coalesce_literal_of_ne hne, ih]
          _ = consLiteral text (coalesce (.literal more :: is)) := by rw [consLiteral_append, ih]
      | expression | control | call =>
        simp only [coalesceOnto, coalesceOne]
        rw [coalesceOnto_concat (by simp)]
        simp [consLiteral, htext]

end Stencil.Instructions
