/-
What the dialects write around and into the bodies of routines. What a buffered routine returns at
once is one line, and so is each line that runs the streaming routine on a buffer of the pool; both
routines stand behind a line of their own that ends with a brace, and end with a line that is one.
-/
import Stencil.Proofs.Component.WellFormed
import Stencil.Proofs.Signature.Reading

namespace Stencil

open Text Code

theorem feed_not_mem_intercalate {separator : String} (hseparator : '\n' ∉ separator.toList)
    {texts : List String} (h : ∀ text ∈ texts, '\n' ∉ text.toList) :
    '\n' ∉ (separator.intercalate texts).toList := by
  induction texts with
  | nil => simp
  | cons text texts ih =>
    rw [List.forall_mem_cons] at h
    by_cases htexts : texts = []
    · subst htexts
      simpa using h.1
    · rw [String.intercalate_cons_of_ne_nil htexts]
      exact feed_not_mem_append (feed_not_mem_append h.1 hseparator) (ih h.2)

theorem isLine_append {front s : String} (hfront : '\n' ∉ front.toList) (hs : IsLine s.toList) :
    IsLine (front ++ s).toList := by
  rw [String.toList_append]
  exact hs.behind hfront

theorem feed_not_mem_trim {text : String} (h : '\n' ∉ text.toList) :
    '\n' ∉ (String.ofList (trim text.toList)).toList := by
  rw [String.toList_ofList]
  exact fun hmem => h (trim_subset _ hmem)

/-- A carriage return is a blank, and a phrase does not end with one. -/
theorem IsPhrase.isLine {text : String} (h : IsPhrase text) : IsLine text.toList where
  no_feed := h.no_feed
  no_return hlast := absurd (h.trimmed.getLast '\r' hlast) (by decide)
  ne_nil := mt String.toList_eq_nil_iff.mp h.ne_empty

theorem isLine_quote {numbered : Char → List Char} {text : String}
    (h : '\n' ∉ (Code.quote numbered text).toList) : IsLine (Code.quote numbered text).toList where
  no_feed := h
  no_return := by
    rw [Code.quote, String.toList_ofList, ← List.cons_append, List.getLast?_concat]
    decide
  ne_nil := by simp [Code.quote]

namespace Dialect

theorem feed_not_mem_forwardedParameters {s : Signature} (h : s.OneLine) :
    '\n' ∉ (forwardedParameters s).toList := by
  refine feed_not_mem_intercalate (by decide) fun name hname => ?_
  obtain ⟨p, hp, rfl⟩ := List.mem_map.mp hname
  exact h.names p hp

theorem feed_not_mem_declaredParameters {s : Signature} (h : s.OneLine) :
    '\n' ∉ (declaredParameters s).toList := by
  refine feed_not_mem_intercalate (by decide) fun declaration hdeclaration => ?_
  obtain ⟨p, hp, rfl⟩ := List.mem_map.mp hdeclaration
  exact h.declarations p hp

theorem feed_not_mem_head {opening name parameters closing : String}
    (hopening : '\n' ∉ opening.toList) (hname : '\n' ∉ name.toList)
    (hparameters : '\n' ∉ parameters.toList) (hclosing : '\n' ∉ closing.toList) :
    '\n' ∉ (opening ++ name ++ "(" ++ parameters ++ closing).toList := by
  simp [hopening, hname, hparameters, hclosing]

theorem isStatement_close : IsStatement ")".toList := ⟨by decide, by decide⟩

/-- A dialect that writes routines out of lines. -/
structure Lined (d : Dialect) : Prop where
  returned : ∀ i : Instruction, i.WellFormed → IsLine (d.returnStatement i).toList
  pooled : ∀ s : Signature, s.OneLine → ∀ line ∈ d.pooledBody s, IsLine line.toList
  framed : ∀ s : Signature, s.OneLine → ∃ first second, '\n' ∉ first.toList ∧
    '\n' ∉ second.toList ∧
    d.routines s = Dialect.framed d.indentUnit first second

namespace Go

theorem isLine_returnStatement {i : Instruction} (h : i.WellFormed) :
    IsLine (returnStatement i).toList := by
  have hreturn : '\n' ∉ "return ".toList := by decide
  cases i with
  | literal text =>
    exact isLine_append hreturn (isLine_quote (feed_not_mem_stringLiteral text))
  | expression expr escape =>
    cases escape with
    | false => exact isLine_append hreturn (IsPhrase.isLine h)
    | true =>
      have hcall : '\n' ∉ ("html.EscapeString(fmt.Sprint(" ++ expr).toList :=
        feed_not_mem_append (by decide) h.no_feed
      exact isLine_append hreturn (isStatement_append hcall ⟨by decide, by decide⟩).isLine
  | call name args =>
    obtain ⟨-, -, -, hname, hargs⟩ := h
    have hcall := isStatement_call hname (feed_not_mem_trim hargs) isStatement_close
    exact isLine_append hreturn hcall.isLine
  | control header body =>
    have hempty : IsLine "\"\"".toList := ⟨⟨by decide, by decide⟩, by decide⟩
    exact isLine_append hreturn hempty

theorem isLine_pooledBody {s : Signature} (h : s.OneLine) :
    ∀ line ∈ pooledBody s, IsLine line.toList := by
  have hforwarded : '\n' ∉ (callArguments "_b" (forwardedParameters s)).toList :=
    feed_not_mem_callArguments (by decide) (feed_not_mem_forwardedParameters h)
  simp only [pooledBody, List.forall_mem_cons, List.not_mem_nil, false_imp_iff, implies_true,
    and_true]
  refine ⟨⟨⟨by decide, by decide⟩, by decide⟩, ?_, ⟨⟨by decide, by decide⟩, by decide⟩,
    ⟨⟨by decide, by decide⟩, by decide⟩, ⟨⟨by decide, by decide⟩, by decide⟩⟩
  exact (isStatement_call (feed_not_mem_streamingName h.name) hforwarded isStatement_close).isLine

end Go

theorem lined_go : Lined .go where
  returned _ h := Go.isLine_returnStatement h
  pooled _ h := Go.isLine_pooledBody h
  framed s h := by
    have hparameters := feed_not_mem_declaredParameters h
    refine ⟨_, _, ?_, ?_, rfl⟩
    · exact feed_not_mem_head (by decide) h.name hparameters (by decide)
    · exact feed_not_mem_head (by decide) (Go.feed_not_mem_streamingName h.name)
        (feed_not_mem_callArguments (by decide) hparameters) (by decide)

namespace Rust

theorem feed_not_mem_bufferedName {name : String} (h : '\n' ∉ name.toList) :
    '\n' ∉ (bufferedName name).toList := by
  have hsnake : '\n' ∉ (snakeName name).toList := by
    rw [snakeName, String.toList_ofList]
    exact feed_not_mem_snakeCase h
  unfold bufferedName identifier?
  split
  · exact hsnake
  · split
    · exact feed_not_mem_append (by decide) hsnake
    · exact hsnake

variable {runtime : String} (hruntime : '\n' ∉ runtime.toList)
include hruntime

theorem isLine_returnStatement {i : Instruction} (h : i.WellFormed) :
    IsLine (returnStatement runtime i).toList := by
  cases i with
  | literal text =>
    have hcall : '\n' ∉ ("String::from(" ++ stringLiteral text).toList :=
      feed_not_mem_append (by decide) (feed_not_mem_stringLiteral text)
    exact (isStatement_append hcall ⟨by decide, by decide⟩).isLine
  | expression expr escape =>
    cases escape with
    | false =>
      have hcall : '\n' ∉ ("(" ++ expr).toList := feed_not_mem_append (by decide) h.no_feed
      exact (isStatement_append hcall ⟨by decide, by decide⟩).isLine
    | true =>
      have hcall : '\n' ∉ (runtime ++ "::escape_to_string(&(" ++ expr).toList :=
        feed_not_mem_append (feed_not_mem_append hruntime (by decide)) h.no_feed
      exact (isStatement_append hcall ⟨by decide, by decide⟩).isLine
  | call name args =>
    obtain ⟨-, -, -, hname, hargs⟩ := h
    exact (isStatement_call (feed_not_mem_bufferedName hname) (feed_not_mem_trim hargs)
      isStatement_close).isLine
  | control header body =>
    have hempty : IsStatement "String::new()".toList := ⟨by decide, by decide⟩
    exact hempty.isLine

theorem isLine_pooledBody {s : Signature} (h : s.OneLine) :
    ∀ line ∈ pooledBody runtime s, IsLine line.toList := by
  have hforwarded : '\n' ∉ (callArguments "&mut _b" (forwardedParameters s)).toList :=
    feed_not_mem_callArguments (by decide) (feed_not_mem_forwardedParameters h)
  have hacquire : '\n' ∉ ("let mut _b = " ++ runtime).toList :=
    feed_not_mem_append (by decide) hruntime
  simp only [pooledBody, List.forall_mem_cons, List.not_mem_nil, false_imp_iff, implies_true,
    and_true]
  refine ⟨?_, ?_, ⟨⟨by decide, by decide⟩, by decide⟩, ?_, ⟨⟨by decide, by decide⟩, by decide⟩⟩
  · exact (isStatement_append hacquire ⟨by decide, by decide⟩).isLine
  · exact (isStatement_call (feed_not_mem_streamingName h.name) hforwarded
      ⟨by decide, by decide⟩).isLine
  · exact (isStatement_append hruntime ⟨by decide, by decide⟩).isLine

end Rust

theorem lined_rust {runtime : String} (hruntime : '\n' ∉ runtime.toList) :
    Lined (.rust runtime) where
  returned _ h := Rust.isLine_returnStatement hruntime h
  pooled _ h := Rust.isLine_pooledBody hruntime h
  framed s h := by
    have hparameters := feed_not_mem_declaredParameters h
    refine ⟨_, _, ?_, ?_, rfl⟩
    · exact feed_not_mem_head (by decide) (Rust.feed_not_mem_bufferedName h.name) hparameters
        (by decide)
    · exact feed_not_mem_head (by decide) (Rust.feed_not_mem_streamingName h.name)
        (feed_not_mem_callArguments (by decide) hparameters) (by decide)

end Dialect

end Stencil
