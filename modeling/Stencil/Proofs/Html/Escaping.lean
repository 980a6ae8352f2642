/-
Escaping, character by character. The runs that a buffer is extended by leave no trace: an escaped
text is the text with each character encoded (`toList_escape`), and no encoding holds a character
that could open a tag or end a value.
-/
import Stencil.Html.Escape

namespace Stencil.Html

/-- A character as its entity, or itself. -/
def encode (c : Char) : List Char :=
  match entity? c with
  | some entity => entity.toList
  | none => [c]

theorem toList_pushRuns (buffer : String) (run cs : List Char) :
    (pushRuns buffer run cs).toList = buffer.toList ++ run.reverse ++ cs.flatMap encode := by
  induction cs generalizing buffer run with
  | nil => simp [pushRuns]
  | cons c cs ih =>
    unfold pushRuns
    split
    · next entity h => simp [ih, encode, h]
    · next h => simp [ih, encode, h]

/-- **An escaped text is its characters encoded.** -/
theorem toList_escape (text : String) : (escape text).toList = text.toList.flatMap encode := by
  unfold escape
  split
  · simp [pushEscaped, toList_pushRuns]
  · next h =>
    have hnone : ∀ c ∈ text.toList, encode c = [c] := by
      intro c hc
      simp only [needsEscaping, List.any_eq_true, not_exists, not_and] at h
      have := h c hc
      unfold encode
      split
      · next hsome => simp [hsome] at this
      · rfl
    rw [List.flatMap_def, List.map_congr_left hnone, ← List.flatMap_def, List.flatMap_singleton']

theorem encode_safe (c : Char) : '<' ∉ encode c ∧ '\'' ∉ encode c := by
  unfold encode
  split
  · next entity h =>
    unfold entity? at h
    split at h <;> cases h <;> decide
  · next h =>
    constructor
    · rintro hmem
      obtain rfl := List.mem_singleton.mp hmem
      cases h
    · rintro hmem
      obtain rfl := List.mem_singleton.mp hmem
      cases h

theorem lt_not_mem_escape (text : String) : '<' ∉ (escape text).toList := by
  rw [toList_escape]
  intro h
  obtain ⟨c, -, hc⟩ := List.mem_flatMap.mp h
  exact (encode_safe c).1 hc

theorem apostrophe_not_mem_escape (text : String) : '\'' ∉ (escape text).toList := by
  rw [toList_escape]
  intro h
  obtain ⟨c, -, hc⟩ := List.mem_flatMap.mp h
  exact (encode_safe c).2 hc

end Stencil.Html
