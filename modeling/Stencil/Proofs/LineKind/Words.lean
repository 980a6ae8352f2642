/-
The kind of a line by its first word. A word is a run of letters, digits and hyphens. A line that
starts with one in lowercase is a definition, a block or an element as the word says
(`ofText_word`); a line that starts with an uppercase letter is a call.
-/
import Stencil.LineKind
import Stencil.Proofs.Text.Trimmed

namespace Stencil.LineKind

open Text

/-- A line that starts with a word in lowercase is of the kind that the word gives it. -/
theorem ofText_word {word rest : List Char} (hne : word ≠ [])
    (hword : ∀ c ∈ word, isKeywordChar c = true) (hlower : word.head?.any isUppercase = false)
    (hrest : ∀ c ∈ rest.head?, isKeywordChar c = false)
    (hgo : word = ['g', 'o'] → rest.head? ≠ some ':') :
    ofText (String.ofList (word ++ rest)) =
      ofKeyword (String.ofList (word ++ rest)) (String.ofList word) rest := by
  have htake := takeWhile_run hword hrest
  have hdrop := dropWhile_run hword hrest
  -- A line of another kind starts with a character that belongs to no word.
  have hstart : ∀ {c : Char} {cs : List Char}, isKeywordChar c = false →
      word ++ rest ≠ c :: cs := by
    intro c cs hc heq
    rw [heq, List.takeWhile_cons_of_neg (by simp [hc])] at htake
    exact hne htake.symm
  unfold ofText
  split
  · next heq => exact absurd ((String.toList_ofList).symm.trans heq) (hstart (by decide))
  · next heq => exact absurd ((String.toList_ofList).symm.trans heq) (hstart (by decide))
  · next heq => exact absurd ((String.toList_ofList).symm.trans heq) (hstart (by decide))
  · next expr heq =>
    have heq : word ++ rest = 'g' :: 'o' :: ':' :: expr := (String.toList_ofList).symm.trans heq
    rw [heq] at htake hdrop
    have hcolon : isKeywordChar ':' = false := by decide
    have hg : isKeywordChar 'g' = true := by decide
    have ho : isKeywordChar 'o' = true := by decide
    simp only [List.takeWhile_cons, List.dropWhile_cons, hcolon, hg, ho, if_true,
      Bool.false_eq_true, if_false] at htake hdrop
    exact absurd (hdrop ▸ rfl) (hgo htake.symm)
  · have hhead : (word ++ rest).head?.any isUppercase = false := by
      obtain ⟨c, cs, rfl⟩ := List.exists_cons_of_ne_nil hne
      exact hlower
    simp only [String.toList_ofList, hhead, Bool.false_eq_true, if_false, keyword, htake, hdrop]

theorem ofText_element {tag : String} {rest : List Char} (hne : tag ≠ "")
    (htag : ∀ c ∈ tag.toList, isKeywordChar c = true)
    (hlower : tag.toList.head?.any isUppercase = false)
    (hreserved : tag ∉ ["component", "each", "if", "else", "for"])
    (hrest : ∀ c ∈ rest.head?, isKeywordChar c = false ∧ c ≠ ':') :
    ofText (String.ofList (tag.toList ++ rest)) = .element tag (String.ofList rest) := by
  rw [ofText_word (mt String.toList_eq_nil_iff.mp hne) htag hlower (fun c hc => (hrest c hc).1)
    fun _ hcolon => (hrest ':' hcolon).2 rfl, String.ofList_toList]
  simp only [List.mem_cons, List.not_mem_nil, or_false, not_or] at hreserved
  obtain ⟨hcomponent, heach, hif, helse, hfor⟩ := hreserved
  have hcontrol : ControlKeyword.ofWord? tag = none := by
    simp [ControlKeyword.ofWord?, ControlKeyword.spelling, Ne.symm hif, Ne.symm helse,
      Ne.symm hfor]
  simp only [ofKeyword, beq_eq_false_iff_ne.mpr hcomponent, beq_eq_false_iff_ne.mpr heach, hcontrol,
    Bool.false_eq_true, if_false]

theorem ofText_control {header : String} (hlast : ∀ c ∈ header.toList.getLast?, isBlank c = false)
    (hkeyword : keyword header ∈ ["if", "else", "for"]) :
    ∃ k, ofText header = .control k header := by
  obtain ⟨word, rest, hword, hrest, hheader⟩ : ∃ word rest, (∀ c ∈ word, isKeywordChar c = true) ∧
      (∀ c ∈ rest.head?, isKeywordChar c = false) ∧ header = String.ofList (word ++ rest) :=
    ⟨_, _, fun c hc => List.mem_takeWhile_imp hc, head?_dropWhile_of_mem,
      by rw [List.takeWhile_append_dropWhile, String.ofList_toList]⟩
  have htrim : String.ofList (trimEnd header.toList) = header := by
    rw [trimEnd_of_getLast hlast, String.ofList_toList]
  rw [keyword, hheader, String.toList_ofList, takeWhile_run hword hrest] at hkeyword
  have hkeyword' : word ∈ ["if".toList, "else".toList, "for".toList] := by
    have := List.mem_map_of_mem (f := String.toList) hkeyword
    rwa [String.toList_ofList] at this
  have hplain : word ≠ [] ∧ word.head?.any isUppercase = false ∧ word ≠ ['g', 'o'] := by
    simp only [List.mem_cons, List.not_mem_nil, or_false] at hkeyword'
    rcases hkeyword' with rfl | rfl | rfl <;> decide
  obtain ⟨hne, hlower, hgo⟩ := hplain
  have hofText := ofText_word hne hword hlower hrest fun h => absurd h hgo
  rw [← hheader, ofKeyword, htrim] at hofText
  simp only [List.mem_cons, List.not_mem_nil, or_false] at hkeyword
  rcases hkeyword with h | h | h
  · exact ⟨.branch, by rw [hofText, h]; rfl⟩
  · exact ⟨.otherwise, by rw [hofText, h]; rfl⟩
  · exact ⟨.loop, by rw [hofText, h]; rfl⟩

theorem ofText_each (clause : List Char) :
    ofText (String.ofList ("each".toList ++ ' ' :: clause)) =
      .each (String.ofList (trim clause)) := by
  rw [ofText_word (by decide) (List.all_eq_true.mp (by decide)) (by decide)
    (by rintro c ⟨⟩; decide) fun _ => by simp, String.ofList_toList]
  rfl

theorem ofText_component (signature : List Char) :
    ofText (String.ofList ("component".toList ++ ' ' :: signature)) =
      .component (String.ofList (trim signature)) := by
  rw [ofText_word (by decide) (List.all_eq_true.mp (by decide)) (by decide)
    (by rintro c ⟨⟩; decide) fun _ => by simp, String.ofList_toList]
  rfl

theorem ofText_call {text : List Char} (hhead : text.head?.any isUppercase = true) :
    ofText (String.ofList text) = .call (String.ofList text) := by
  have hstart : ∀ {c : Char} {cs : List Char}, isUppercase c = false → text ≠ c :: cs := by
    rintro c cs hc rfl
    exact Bool.false_ne_true (hc.symm.trans hhead)
  unfold ofText
  split
  · next heq => exact absurd ((String.toList_ofList).symm.trans heq) (hstart (by decide))
  · next heq => exact absurd ((String.toList_ofList).symm.trans heq) (hstart (by decide))
  · next heq => exact absurd ((String.toList_ofList).symm.trans heq) (hstart (by decide))
  · next heq => exact absurd ((String.toList_ofList).symm.trans heq) (hstart (by decide))
  · simp only [String.toList_ofList, hhead, if_true]

theorem ofText_embed (expr : List Char) :
    ofText (String.ofList ('g' :: 'o' :: ':' :: expr)) = .embed (String.ofList expr) := by
  simp only [ofText, String.toList_ofList]

theorem ofText_comment (text : List Char) :
    ofText (String.ofList ('/' :: '/' :: text)) = .comment := by
  simp only [ofText, String.toList_ofList]

end Stencil.LineKind
