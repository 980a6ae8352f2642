/-
The code of a body has the blocks of the body. A writer that writes a body is followed by a reader
of code, instruction by instruction: it reads one item for each (`follows_writeBody`). So the code
of a streaming routine, read back by its lines, is the body with each instruction as its dialect
writes it (`read_streamingBody`), whatever braces and blanks the texts of the body hold.
-/
import Stencil.Compile
import Stencil.Proofs.Dialect.Statements

namespace Stencil

open Text Code

namespace Dialect

mutual

/-- The code of an instruction: its statement, or a block around the code of its body. -/
def item (d : Dialect) : Instruction → Item
  | .literal text => .statement (d.literalStatement text).toList
  | .expression expr escape => .statement (d.expressionStatement expr escape).toList
  | .call name args => .statement (d.callStatement name args).toList
  | .control header body => .block (d.blockHeader header).toList (items d body)

/-- The code of a body, one item for each instruction. -/
def items (d : Dialect) : Instructions → List Item
  | [] => []
  | i :: is => item d i :: items d is

end

variable {d : Dialect}

theorem follows_openBlock (hd : d.Regular) {header : Header} (hheader : header.OneLine) {r : Reader}
    {w : Writer} (h : Follows d.indentUnit.toList r w) :
    Follows d.indentUnit.toList (r.openBlock (d.blockHeader header).toList)
      (d.openBlock header w).indent := by
  have hline : (d.blockHeader header ++ r" {").toList =
      headerLine (d.blockHeader header).toList := by
    simp [headerLine]
  unfold Dialect.openBlock
  dsimp only
  split
  · exact h.continueBlock hd.unit (hd.header header hheader) hline
  · exact h.openBlock hd.unit (hd.header header hheader) hline

mutual

/-- Writing an instruction adds its item to what was read. -/
theorem follows_writeInstruction (hd : d.Regular) : ∀ (i : Instruction),
    (∀ j ∈ Instructions.walkOne i, j.OneLine) → ∀ {r : Reader} {w : Writer},
      Follows d.indentUnit.toList r w →
        Follows d.indentUnit.toList (r.add (d.item i)) (d.writeInstruction i w)
  | .literal text, _, r, w, h => by
    rw [item, writeInstruction]
    exact h.statement hd.unit (hd.literal text)
  | .expression expr escape, hi, r, w, h => by
    have hexpr : (Instruction.expression expr escape).OneLine := hi _ List.mem_cons_self
    rw [item, writeInstruction]
    exact h.statement hd.unit (hd.expression expr escape hexpr)
  | .call name args, hi, r, w, h => by
    have hcall : (Instruction.call name args).OneLine := hi _ List.mem_cons_self
    rw [item, writeInstruction]
    exact h.statement hd.unit (hd.call name args hcall.1 hcall.2)
  | .control header body, hi, r, w, h => by
    have hheader : (Instruction.control header body).OneLine := hi _ List.mem_cons_self
    have hbody : ∀ j ∈ Instructions.walk body, j.OneLine := fun j hj =>
      hi j (List.mem_cons_of_mem _ hj)
    have hinner := follows_writeBody hd body hbody (follows_openBlock hd hheader h)
    rw [item, writeInstruction]
    -- The block that was opened holds the items of the body, and closing it adds it to `r`.
    exact hinner.closeBlock hd.unit rfl

/-- Writing a body adds its items to what was read. -/
theorem follows_writeBody (hd : d.Regular) : ∀ (body : Instructions),
    (∀ i ∈ Instructions.walk body, i.OneLine) → ∀ {r : Reader} {w : Writer},
      Follows d.indentUnit.toList r w →
        Follows d.indentUnit.toList { r with items := r.items ++ d.items body } (d.writeBody body w)
  | [], _, r, w, h => by
    rw [items, writeBody, List.append_nil]
    exact h
  | i :: is, his, r, w, h => by
    have hwalk : ∀ j ∈ Instructions.walkOne i ++ Instructions.walk is, j.OneLine := his
    rw [List.forall_mem_append] at hwalk
    have hfirst := follows_writeInstruction hd i hwalk.1 h
    have hrest := follows_writeBody hd is hwalk.2 hfirst
    rw [items, writeBody]
    simpa [Reader.add, List.append_assoc] using hrest

end

/-- The code of a streaming routine is made of lines, and reading them leads to its items. -/
theorem reaches_streamingBody (hd : d.Regular) {body : Instructions}
    (hbody : ∀ i ∈ body.walk, i.OneLine) :
    Reaches d.indentUnit.toList (d.streamingBody body).toList ⟨d.items body, []⟩ := by
  have hstart : Follows d.indentUnit.toList Reader.start { unit := d.indentUnit } :=
    Follows.start d.indentUnit
  have := (follows_writeBody hd body hbody hstart).reaches
  exact this

/-- **The code of a body has the block structure of the body.** Read back by its lines, the code
of a streaming routine is one statement for each text, expression and call, as the dialect writes
it, and one block for each block of the body, under the dialect's header, in the same order and
the same nesting. -/
theorem read_streamingBody {runtime : String} (hruntime : '\n' ∉ runtime.toList) {d : Dialect}
    (hd : d = .go ∨ d = .rust runtime) {body : Instructions} (hbody : ∀ i ∈ body.walk, i.OneLine) :
    Code.read d.indentUnit.toList (d.streamingBody body).toList = some (d.items body) := by
  have hregular : d.Regular := by
    rcases hd with rfl | rfl
    · exact regular_go
    · exact regular_rust hruntime
  exact (reaches_streamingBody hregular hbody).read

/-- Two joined branches, and texts that look like braces and line breaks. -/
def branches : Instructions :=
  [.control (.raw r"if a {")
      [.literal (String.ofList ['\n', '}', '\n']), .control (.each "p" "ps") []],
    .control (.raw "else")
      [.expression r"}" true, .control (.raw "else if b") [.call "Card" " "]],
    .expression r"    x {" false]

theorem read_streamingBody_branches :
    '\n' ∉ "::sap".toList ∧ (∀ i ∈ branches.walk, i.OneLine) ∧
      Code.read "    ".toList ((rust "::sap").streamingBody branches).toList =
        some ((rust "::sap").items branches) := by
  have hruntime : '\n' ∉ "::sap".toList := by decide
  have hbody : ∀ i ∈ branches.walk, i.OneLine := by
    have hraw : ∀ text ∈ [r"if a {", "else", "else if b"], (Header.raw text).OneLine := by
      unfold Header.OneLine
      decide +kernel
    have heach : (Header.each "p" "ps").OneLine := by
      unfold Header.OneLine
      decide
    intro i hi
    simp only [branches, Instructions.walk, Instructions.walkOne, List.nil_append, List.append_nil,
      List.cons_append, List.mem_cons, List.not_mem_nil, or_false] at hi
    rcases hi with rfl | rfl | rfl | rfl | rfl | rfl | rfl | rfl
    · exact hraw _ (by simp)
    · trivial
    · exact heach
    · exact hraw _ (by simp)
    · simp [Instruction.OneLine]
    · exact hraw _ (by simp)
    · simp [Instruction.OneLine]
    · simp [Instruction.OneLine]
  exact ⟨hruntime, hbody, read_streamingBody hruntime (.inr rfl) hbody⟩

end Dialect

end Stencil
