/-
The forms of lines. What a line is says how its text looks and which part of the text was kept: one
form for each way to read a line (`matches_ofText`). The parts are made of characters of the line,
a header keeps the keyword that it was told by, and nothing but a line that starts with `go:` embeds
an expression.
-/
import Stencil.Proofs.LineKind.Words

namespace Stencil

open Text

namespace LineKind

/-- A line of a kind, by the text that follows its tabs. -/
inductive Matches (text : String) : LineKind → Prop
  | comment : Matches text .comment
  /-- An element without a tag name. -/
  | container : Matches text (.element containerTag text)
  | embed {expr : List Char} : text.toList = 'g' :: 'o' :: ':' :: expr →
      Matches text (.embed (String.ofList expr))
  | call : text.toList.head?.any isUppercase = true → Matches text (.call text)
  | component : Matches text
      (.component (String.ofList (trim (text.toList.dropWhile isKeywordChar))))
  | each : Matches text (.each (String.ofList (trim (text.toList.dropWhile isKeywordChar))))
  | control {k : ControlKeyword} : keyword text = k.spelling →
      Matches text (.control k (String.ofList (trimEnd text.toList)))
  | element : Matches text
      (.element (keyword text) (String.ofList (text.toList.dropWhile isKeywordChar)))

theorem ofWord?_eq_some {word : String} {k : ControlKeyword}
    (h : ControlKeyword.ofWord? word = some k) : word = k.spelling := by
  have := List.find?_some h
  exact (by simpa using this : k.spelling = word).symm

theorem matches_ofText (text : String) : Matches text (ofText text) := by
  unfold ofText
  split
  · exact .comment
  · exact .container
  · exact .container
  · next expr htext => exact .embed htext
  · split
    · next hupper => exact .call hupper
    · unfold ofKeyword
      split
      · exact .component
      split
      · exact .each
      split
      · next k hk => exact .control (ofWord?_eq_some hk)
      · exact .element

variable {text : String} {kind : LineKind}

theorem matches_of_eq (h : ofText text = kind) : Matches text kind := h ▸ matches_ofText text

theorem subset_of_component {signature : String} (h : ofText text = .component signature) :
    signature.toList ⊆ text.toList := by
  cases matches_of_eq h with
  | component =>
    rw [String.toList_ofList]
    intro c hc
    exact (List.dropWhile_suffix isKeywordChar).subset (trim_subset _ hc)

theorem subset_of_each {clause : String} (h : ofText text = .each clause) :
    clause.toList ⊆ text.toList := by
  cases matches_of_eq h with
  | each =>
    rw [String.toList_ofList]
    intro c hc
    exact (List.dropWhile_suffix isKeywordChar).subset (trim_subset _ hc)

theorem subset_of_element {tag rest : String} (h : ofText text = .element tag rest) :
    rest.toList ⊆ text.toList := by
  cases matches_of_eq h with
  | container => exact List.Subset.refl _
  | element =>
    rw [String.toList_ofList]
    exact (List.dropWhile_suffix isKeywordChar).subset

/-- The tag of an element line is made of keyword characters. -/
theorem keyword_of_element {tag rest : String} (h : ofText text = .element tag rest) :
    ∀ c ∈ tag.toList, isKeywordChar c = true := by
  cases matches_of_eq h with
  | container => exact List.all_eq_true.mp (by decide)
  | element =>
    intro c hc
    rw [keyword, String.toList_ofList] at hc
    exact List.mem_takeWhile_imp hc

theorem trimmed_of_each {clause : String} (h : ofText text = .each clause) :
    Trimmed clause.toList := by
  cases matches_of_eq h with
  | each =>
    rw [String.toList_ofList]
    exact trimmed_trim _

/-- Only a line that starts with `go:` embeds an expression. -/
theorem text_of_embed {expr : String} (h : ofText text = .embed expr) :
    text.toList = 'g' :: 'o' :: ':' :: expr.toList := by
  cases matches_of_eq h with
  | embed htext => rw [htext, String.toList_ofList]

theorem text_of_call {call : String} (h : ofText text = .call call) :
    call = text ∧ text.toList.head?.any isUppercase = true := by
  cases matches_of_eq h with
  | call hupper => exact ⟨rfl, hupper⟩

/-- The blanks behind a line do not belong to its leading word. -/
theorem keyword_trimEnd (text : String) :
    keyword (String.ofList (trimEnd text.toList)) = keyword text := by
  have hrun : ∀ c ∈ text.toList.takeWhile isKeywordChar, isKeywordChar c = true :=
    fun c hc => List.mem_takeWhile_imp hc
  have hsplit : trimEnd text.toList = text.toList.takeWhile isKeywordChar ++
      trimEnd (text.toList.dropWhile isKeywordChar) := by
    rw [← trimEnd_append fun c hc => isBlank_of_isKeywordChar (hrun c hc),
      List.takeWhile_append_dropWhile]
  have hrest : ∀ c ∈ (trimEnd (text.toList.dropWhile isKeywordChar)).head?,
      isKeywordChar c = false := by
    intro c hc
    have hhead : c ∈ (text.toList.dropWhile isKeywordChar).head? := by
      obtain ⟨rest, hrest⟩ := trimEnd_initial (text.toList.dropWhile isKeywordChar)
      rw [← hrest, List.head?_append, Option.mem_def.mp hc]
      rfl
    exact head?_dropWhile_of_mem c hhead
  rw [keyword, String.toList_ofList, hsplit, takeWhile_run hrun hrest, keyword]

/-- A header is the line without the blanks behind it, and starts with a keyword of blocks. -/
theorem header_of_control {k : ControlKeyword} {header : String}
    (h : ofText text = .control k header) :
    header.toList = trimEnd text.toList ∧ keyword header = k.spelling := by
  cases matches_of_eq h with
  | control hk => exact ⟨String.toList_ofList, (keyword_trimEnd text).trans hk⟩

end LineKind

end Stencil
