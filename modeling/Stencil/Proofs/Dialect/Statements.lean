/-
What the dialects write for an instruction takes one line. A statement holds no line feed when the
texts that the instruction holds have none, since string literals escape theirs and no case mapping
makes one; and it ends with a semicolon or a parenthesis, so that it is not taken for a line that
opens or closes a block. A block header starts with the keyword of its block.
-/
import Stencil.Dialect.Go
import Stencil.Dialect.Rust
import Stencil.Proofs.Code.Reading
import Stencil.Proofs.Text.Names
import Stencil.Proofs.Text.Trimmed

namespace Stencil

open Text Code

/-! ## Texts without line feeds -/

/-- A header on one line, with the keyword of a block in front. -/
def Header.OneLine : Header → Prop
  | raw text => '\n' ∉ text.toList ∧ LineKind.keyword text ∈ ["if", "else", "for"]
  | each binding iterable => '\n' ∉ binding.toList ∧ '\n' ∉ iterable.toList

/-- An instruction whose texts, apart from what it writes, hold no line feed. -/
def Instruction.OneLine : Instruction → Prop
  | literal _ => True
  | expression expr _ => '\n' ∉ expr.toList
  | control header _ => header.OneLine
  | call name args => '\n' ∉ name.toList ∧ '\n' ∉ args.toList

theorem feed_not_mem_append {s t : String} (hs : '\n' ∉ s.toList) (ht : '\n' ∉ t.toList) :
    '\n' ∉ (s ++ t).toList := by
  simp [hs, ht]

/-- The numbers of control characters are written without line feeds. -/
theorem feed_not_mem_hex {c : Char} (h : isControl c = true) : '\n' ∉ hex c.toNat := by
  have hcode : c.toNat < 0xA0 := by
    simp only [isControl, Bool.or_eq_true, Bool.and_eq_true, decide_eq_true_eq] at h
    omega
  exact forall_code_lt (P := fun c => '\n' ∉ hex c.toNat) (by decide +kernel) hcode

theorem feed_not_mem_quote {numbered : Char → List Char}
    (h : ∀ c, isControl c = true → '\n' ∉ numbered c) (text : String) :
    '\n' ∉ (Code.quote numbered text).toList := by
  have hchar : ∀ c, '\n' ∉ Code.quoteChar numbered c := by
    intro c
    unfold Code.quoteChar
    split
    · decide
    split
    · decide
    split
    · decide
    split
    · decide
    split
    · decide
    split
    · next hcontrol => exact h c hcontrol
    · next hfeed _ _ _ =>
      intro hmem
      exact hfeed (by simpa using (List.mem_singleton.mp hmem).symm)
  simp [Code.quote, hchar]

theorem feed_not_mem_callArguments {first args : String} (hfirst : '\n' ∉ first.toList)
    (hargs : '\n' ∉ args.toList) : '\n' ∉ (Dialect.callArguments first args).toList := by
  have htrim : '\n' ∉ trim args.toList := fun hmem => hargs (trim_subset _ hmem)
  unfold Dialect.callArguments
  dsimp only
  split
  · exact hfirst
  · simp [hfirst, htrim]

/-! ## Statements and headers -/

theorem isStatement_append {front s : String} (hfront : '\n' ∉ front.toList)
    (hs : IsStatement s.toList) : IsStatement (front ++ s).toList where
  no_feed := feed_not_mem_append hfront hs.no_feed
  last := by
    rw [String.toList_append, List.getLast?_append,
      List.getLast?_eq_some_getLast hs.isLine.ne_nil, Option.some_or,
      ← List.getLast?_eq_some_getLast hs.isLine.ne_nil]
    exact hs.last

/-- The call of a routine, closed by a parenthesis and maybe a semicolon. -/
theorem isStatement_call {name args close : String} (hname : '\n' ∉ name.toList)
    (hargs : '\n' ∉ args.toList) (hclose : IsStatement close.toList) :
    IsStatement (name ++ "(" ++ args ++ close).toList :=
  isStatement_append (feed_not_mem_append (feed_not_mem_append hname (by simp)) hargs) hclose

/-- A header starts with the first letter of its keyword. -/
theorem head_of_keyword {text : String} (h : LineKind.keyword text ∈ ["if", "else", "for"]) :
    text.toList.head? ≠ some '}' := by
  intro hhead
  cases hcs : text.toList with
  | nil => simp [hcs] at hhead
  | cons c cs =>
    obtain rfl : c = '}' := by simpa [hcs] using hhead
    have hbrace : isKeywordChar '}' = false := by decide
    simp [LineKind.keyword, hcs, hbrace] at h

namespace Dialect

/-- A dialect in which every instruction on one line is written as a statement or a block. -/
structure Regular (d : Dialect) : Prop where
  unit : IsUnit d.indentUnit.toList
  literal : ∀ text, IsStatement (d.literalStatement text).toList
  expression : ∀ expr escape, '\n' ∉ expr.toList →
    IsStatement (d.expressionStatement expr escape).toList
  call : ∀ name args, '\n' ∉ name.toList → '\n' ∉ args.toList →
    IsStatement (d.callStatement name args).toList
  header : ∀ header : Header, header.OneLine → IsHeader (d.blockHeader header).toList

namespace Go

theorem isUnit_indentUnit : IsUnit indentUnit.toList := ⟨by decide, by decide, by decide⟩

theorem feed_not_mem_numbered {c : Char} (h : isControl c = true) : '\n' ∉ numbered c := by
  have hhex := feed_not_mem_hex h
  simp [numbered, paddedHex, hhex]

theorem feed_not_mem_stringLiteral (text : String) : '\n' ∉ (stringLiteral text).toList :=
  feed_not_mem_quote (fun _ h => feed_not_mem_numbered h) text

theorem feed_not_mem_streamingName {name : String} (h : '\n' ∉ name.toList) :
    '\n' ∉ (streamingName name).toList := by
  have hname := feed_not_mem_capitalize h
  simp [streamingName, hname]

theorem feed_not_mem_escaped {expr : String} (h : '\n' ∉ expr.toList) :
    '\n' ∉ (escaped expr).toList :=
  feed_not_mem_append (feed_not_mem_append (by simp) h) (by simp)

theorem isStatement_writeStatement {value : String} (h : '\n' ∉ value.toList) :
    IsStatement (writeStatement value).toList :=
  isStatement_append (feed_not_mem_append (by simp) h) ⟨by simp, by simp⟩

end Go

theorem regular_go : Regular .go where
  unit := Go.isUnit_indentUnit
  literal text := Go.isStatement_writeStatement (Go.feed_not_mem_stringLiteral text)
  expression expr escape h := by
    change IsStatement (Go.writeStatement (if escape then Go.escaped expr else expr)).toList
    refine Go.isStatement_writeStatement ?_
    cases escape with
    | false => exact h
    | true => exact Go.feed_not_mem_escaped h
  call name args hname hargs := by
    have hstream := Go.feed_not_mem_streamingName hname
    have hcall : '\n' ∉ (callArguments "_b" args).toList :=
      feed_not_mem_callArguments (by decide) hargs
    exact isStatement_call hstream hcall ⟨by simp, by simp⟩
  header header h := by
    cases header with
    | raw text => exact ⟨h.1, head_of_keyword h.2⟩
    | each binding iterable =>
      obtain ⟨hbinding, hiterable⟩ := h
      change IsHeader ("for _, " ++ binding ++ " := range " ++ iterable).toList
      exact ⟨by simp [hbinding, hiterable], by simp⟩

namespace Rust

theorem isUnit_indentUnit : IsUnit indentUnit.toList := ⟨by decide, by decide, by decide⟩

theorem feed_not_mem_numbered {c : Char} (h : isControl c = true) : '\n' ∉ numbered c := by
  have hhex := feed_not_mem_hex h
  simp [numbered, hhex]

theorem feed_not_mem_stringLiteral (text : String) : '\n' ∉ (stringLiteral text).toList :=
  feed_not_mem_quote (fun _ h => feed_not_mem_numbered h) text

theorem feed_not_mem_streamingName {name : String} (h : '\n' ∉ name.toList) :
    '\n' ∉ (streamingName name).toList := by
  have hname := feed_not_mem_snakeCase h
  simp [streamingName, snakeName, hname]

end Rust

theorem regular_rust {runtime : String} (hruntime : '\n' ∉ runtime.toList) :
    Regular (.rust runtime) where
  unit := Rust.isUnit_indentUnit
  literal text := by
    have hliteral := Rust.feed_not_mem_stringLiteral text
    exact isStatement_append (feed_not_mem_append (by simp) hliteral) ⟨by simp, by simp⟩
  expression expr escape h := by
    have hfunction : '\n' ∉ (if escape then "::write_escaped" else "::write_raw").toList := by
      cases escape <;> simp
    exact isStatement_append (feed_not_mem_append (feed_not_mem_append
      (feed_not_mem_append hruntime hfunction) (by simp)) h) ⟨by simp, by simp⟩
  call name args hname hargs := by
    have hstream := Rust.feed_not_mem_streamingName hname
    have hcall : '\n' ∉ (callArguments "_b" args).toList :=
      feed_not_mem_callArguments (by decide) hargs
    exact isStatement_call hstream hcall ⟨by simp, by simp⟩
  header header h := by
    cases header with
    | raw text => exact ⟨h.1, head_of_keyword h.2⟩
    | each binding iterable =>
      obtain ⟨hbinding, hiterable⟩ := h
      change IsHeader ("for " ++ binding ++ " in " ++ iterable).toList
      exact ⟨by simp [hbinding, hiterable], by simp⟩

end Dialect

end Stencil
