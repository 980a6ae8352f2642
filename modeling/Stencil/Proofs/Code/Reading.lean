/-
Reading code back by its lines. A reader goes through the lines with a stack of open blocks. At
depth `n` it takes `n` units of indentation off a line; the rest opens a block when it ends with a
brace and is a statement otherwise. A line one level further out has to start with the brace that
closes the innermost block, and may open the next one behind it.

A reader follows a writer when it has read what the writer has written (`Follows`). Each thing that
a writer does to its code is then one step of the reader: writing a statement, opening a block on a
line of its own or behind a closing brace, and closing a block. A writer that puts an opening on
the last line changes what the reader has read there; the brace on that line closed a block, and
the changed line closes the same block before it opens another (`Follows.continueBlock`).
-/
import Mathlib.Data.List.Basic
import Stencil.Code.Writer
import Stencil.Proofs.Text.Lines

namespace Stencil.Code

open Text

/-! ## The reader -/

/-- Code as its lines say it: a statement, or a block of code under a header. -/
inductive Item where
  | statement (text : List Char)
  | block (header : List Char) (body : List Item)

/-- What a line says, apart from its indentation. -/
inductive Token where
  /-- A closing brace alone. -/
  | close
  /-- A closing brace, then a header with an opening brace. -/
  | reopen (header : List Char)
  /-- A header with an opening brace. -/
  | opening (header : List Char)
  | statement (text : List Char)

def token (text : List Char) : Token :=
  match text.dropSuffix? [' ', '{'] with
  | some ('}' :: ' ' :: header) => .reopen header
  | some header => .opening header
  | none => if text = ['}'] then .close else .statement text

/-- `depth` units of indentation. -/
def indentation (unit : List Char) (depth : Nat) : List Char := (List.replicate depth unit).flatten

/-- A block that is open, with the items before it. -/
structure OpenBlock where
  before : List Item
  header : List Char

/-- What was read so far. -/
structure Reader where
  /-- The items of the innermost open block. -/
  items : List Item
  /-- The open blocks, innermost first. -/
  blocks : List OpenBlock

namespace Reader

def start : Reader := ⟨[], []⟩

def depth (r : Reader) : Nat := r.blocks.length

def add (r : Reader) (item : Item) : Reader := { r with items := r.items ++ [item] }

def openBlock (r : Reader) (header : List Char) : Reader := ⟨[], ⟨r.items, header⟩ :: r.blocks⟩

/-- The reader after the end of the innermost block, if one is open. -/
def closeBlock? (r : Reader) : Option Reader :=
  match r.blocks with
  | [] => none
  | b :: blocks => some ⟨b.before ++ [.block b.header r.items], blocks⟩

/-- Reads a line at the depth of the innermost block, or one that ends this block. -/
def readLine (unit : List Char) (r : Reader) (line : List Char) : Option Reader :=
  match line.dropPrefix? (indentation unit r.depth) with
  | some text =>
    match token text with
    | .opening header => some (r.openBlock header)
    | .statement text => some (r.add (.statement text))
    | _ => none
  | none =>
    match r.closeBlock? with
    | none => none
    | some outer =>
      match (line.dropPrefix? (indentation unit outer.depth)).map token with
      | some .close => some outer
      | some (.reopen header) => some (outer.openBlock header)
      | _ => none

/-- Reads lines in order. -/
def readLines (unit : List Char) (r : Reader) (lines : List (List Char)) : Option Reader :=
  lines.foldlM (readLine unit) r

end Reader

/-- The items of a code in which every line can be read and every block is closed. -/
def read (unit code : List Char) : Option (List Item) :=
  match Reader.start.readLines unit (lines code) with
  | some ⟨items, []⟩ => some items
  | _ => none

/-! ## Lines of code -/

/-- A line that is not empty, holds no line feed and does not end with a carriage return. -/
structure IsLine (l : List Char) : Prop extends Unbroken l where
  ne_nil : l ≠ []

/-- A text that is read as a statement. -/
structure IsStatement (s : List Char) : Prop where
  no_feed : '\n' ∉ s
  last : s.getLast? = some ';' ∨ s.getLast? = some ')'

/-- A text that can stand before an opening brace. -/
structure IsHeader (h : List Char) : Prop where
  no_feed : '\n' ∉ h
  head : h.head? ≠ some '}'

/-- A text that lines can be indented by. -/
structure IsUnit (unit : List Char) : Prop where
  ne_nil : unit ≠ []
  head : unit.head? ≠ some '}'
  no_feed : '\n' ∉ unit

/-- The line of a header with its brace. -/
def headerLine (header : List Char) : List Char := header ++ [' ', '{']

theorem getLast?_headerLine (cs header : List Char) :
    (cs ++ headerLine header).getLast? = some '{' := by
  simp [headerLine, List.getLast?_append]

theorem dropSuffix?_headerLine (header : List Char) :
    (headerLine header).dropSuffix? [' ', '{'] = some header :=
  List.dropSuffix?_eq_some_iff.mpr ⟨[' ', '{'], rfl, by decide⟩

theorem token_headerLine {header : List Char} (h : IsHeader header) :
    token (headerLine header) = .opening header := by
  unfold token
  rw [dropSuffix?_headerLine]
  split
  · next heq =>
    simp only [Option.some.injEq] at heq
    exact absurd (by simp [heq]) h.head
  · next heq =>
    simp only [Option.some.injEq] at heq
    rw [heq]
  · next heq => simp at heq

theorem token_reopen (header : List Char) :
    token ('}' :: ' ' :: headerLine header) = .reopen header := by
  have hdrop := dropSuffix?_headerLine ('}' :: ' ' :: header)
  simp only [headerLine, List.cons_append] at hdrop ⊢
  simp [token, hdrop]

theorem token_brace : token ['}'] = .close := rfl

theorem token_statement {s : List Char} (h : IsStatement s) : token s = .statement s := by
  have hdrop : s.dropSuffix? [' ', '{'] = none := by
    rw [Option.eq_none_iff_forall_ne_some]
    intro t ht
    obtain ⟨e, rfl, he⟩ := List.dropSuffix?_eq_some_iff.mp ht
    obtain rfl : e = [' ', '{'] := by simpa using he
    have hlast := h.last
    simp at hlast
  have hbrace : s ≠ ['}'] := by
    intro hs
    have hlast := h.last
    simp [hs] at hlast
  simp [token, hdrop, hbrace]

/-! ## Indented lines -/

theorem indentation_succ (unit : List Char) (n : Nat) :
    indentation unit (n + 1) = indentation unit n ++ unit := by
  rw [indentation, List.replicate_succ', List.flatten_concat, indentation]

theorem feed_not_mem_indentation {unit : List Char} (h : '\n' ∉ unit) (n : Nat) :
    '\n' ∉ indentation unit n := by
  induction n with
  | zero => simp [indentation]
  | succ n ih =>
    rw [indentation_succ, List.mem_append, not_or]
    exact ⟨ih, h⟩

/-- A line stays a line with a text in front. -/
theorem IsLine.behind {front l : List Char} (h : IsLine l) (hfront : '\n' ∉ front) :
    IsLine (front ++ l) where
  no_feed := by
    rw [List.mem_append, not_or]
    exact ⟨hfront, h.no_feed⟩
  no_return := by
    rw [List.getLast?_append, List.getLast?_eq_some_getLast h.ne_nil, Option.some_or,
      ← List.getLast?_eq_some_getLast h.ne_nil]
    exact h.no_return
  ne_nil := by simp [h.ne_nil]

theorem IsLine.indent {unit l : List Char} (h : IsLine l) (hunit : '\n' ∉ unit) (n : Nat) :
    IsLine (indentation unit n ++ l) :=
  h.behind (feed_not_mem_indentation hunit n)

theorem IsStatement.isLine {s : List Char} (h : IsStatement s) : IsLine s where
  no_feed := h.no_feed
  no_return := by
    intro hlast
    have := h.last
    simp [hlast] at this
  ne_nil := by
    intro hnil
    have := h.last
    simp [hnil] at this

theorem IsHeader.isLine {header : List Char} (h : IsHeader header) :
    IsLine (headerLine header) where
  no_feed := by simp [headerLine, h.no_feed]
  no_return := by
    rw [← List.nil_append (headerLine header), getLast?_headerLine]
    decide
  ne_nil := by simp [headerLine]

theorem IsHeader.isLine_reopen {header : List Char} (h : IsHeader header) :
    IsLine ('}' :: ' ' :: headerLine header) where
  no_feed := by simp [h.isLine.no_feed]
  no_return := by
    rw [show '}' :: ' ' :: headerLine header = ['}', ' '] ++ headerLine header from rfl,
      getLast?_headerLine]
    decide
  ne_nil := by simp

theorem isLine_brace : IsLine ['}'] where
  no_feed := by decide
  no_return := by decide
  ne_nil := by decide

namespace Reader

variable {unit : List Char} {r outer : Reader}

theorem readLine_statement (unit : List Char) (r : Reader) {s : List Char} (h : IsStatement s) :
    r.readLine unit (indentation unit r.depth ++ s) = some (r.add (.statement s)) := by
  rw [readLine, List.dropPrefix?_append_of_beq s (by simp)]
  simp [token_statement h]

theorem readLine_opening (unit : List Char) (r : Reader) {header : List Char}
    (h : IsHeader header) :
    r.readLine unit (indentation unit r.depth ++ headerLine header) =
      some (r.openBlock header) := by
  rw [readLine, List.dropPrefix?_append_of_beq (headerLine header) (by simp)]
  simp [token_headerLine h]

theorem depth_of_closeBlock? (h : r.closeBlock? = some outer) : r.depth = outer.depth + 1 := by
  unfold closeBlock? at h
  split at h
  · simp at h
  · next heq =>
    cases h
    simp [depth, heq]

/-- A line with a closing brace one level further out is not taken for one of the block. -/
theorem dropPrefix?_brace (hunit : IsUnit unit) (n : Nat) (cs : List Char) :
    (indentation unit n ++ '}' :: cs).dropPrefix? (indentation unit (n + 1)) = none := by
  rw [Option.eq_none_iff_forall_ne_some]
  intro text htext
  obtain ⟨p, hsplit, hp⟩ := List.dropPrefix?_eq_some_iff.mp htext
  obtain rfl : p = indentation unit (n + 1) := by simpa using hp
  rw [indentation_succ, List.append_assoc, List.append_cancel_left_eq] at hsplit
  obtain ⟨c, cs', hc⟩ := List.exists_cons_of_ne_nil hunit.ne_nil
  rw [hc, List.cons_append] at hsplit
  simp only [List.cons.injEq] at hsplit
  exact hunit.head (by rw [hc, ← hsplit.1]; rfl)

theorem readLine_brace (hunit : IsUnit unit) (h : r.closeBlock? = some outer) :
    r.readLine unit (indentation unit outer.depth ++ ['}']) = some outer := by
  rw [readLine, depth_of_closeBlock? h, dropPrefix?_brace hunit, h]
  simp [List.dropPrefix?_append_of_beq, token_brace]

/-- A line that closes a block and opens one does what two lines would do. -/
theorem readLine_reopen (hunit : IsUnit unit) (h : r.closeBlock? = some outer)
    (header : List Char) :
    r.readLine unit (indentation unit outer.depth ++ '}' :: ' ' :: headerLine header) =
      some (outer.openBlock header) := by
  rw [readLine, depth_of_closeBlock? h, dropPrefix?_brace hunit, h]
  simp [List.dropPrefix?_append_of_beq, token_reopen]

end Reader

/-- The code is made of lines, and reading them leads to `r`. -/
def Reaches (unit code : List Char) (r : Reader) : Prop :=
  ∃ ls, code = unlines ls ∧ (∀ l ∈ ls, IsLine l) ∧ Reader.start.readLines unit ls = some r

theorem Reaches.line {unit code l : List Char} {r t : Reader} (h : Reaches unit code r)
    (hl : IsLine l) (hread : r.readLine unit l = some t) :
    Reaches unit (code ++ (l ++ ['\n'])) t := by
  obtain ⟨ls, rfl, hls, hr⟩ := h
  refine ⟨ls ++ [l], (unlines_concat ls l).symm, ?_, ?_⟩
  · exact List.forall_mem_append.mpr ⟨hls, List.forall_mem_singleton.mpr hl⟩
  · unfold Reader.readLines at hr ⊢
    rw [List.foldlM_append, hr]
    simp [hread]

theorem Reaches.read {unit code : List Char} {items : List Item}
    (h : Reaches unit code ⟨items, []⟩) : read unit code = some items := by
  obtain ⟨ls, rfl, hls, hr⟩ := h
  rw [Code.read, lines_unlines fun l hl => (hls l hl).toUnbroken, hr]

/-! ## Writing -/

namespace Writer

theorem toList_pushLine (w : Writer) (s : String) : (w.pushLine s).code.toList =
    w.code.toList ++ (indentation w.unit.toList w.depth ++ s.toList ++ ['\n']) := by
  simp [pushLine, pushIndent, push, indentation, String.toList_join, List.flatMap,
    List.map_replicate]

/-- Code whose last line is a closing brace ends with one. -/
theorem getLast_of_closesBlock {cs : List Char} (h : closesBlock (cs ++ ['\n']) = true) :
    cs.getLast? = some '}' := by
  simp only [closesBlock, lastLine?, List.reverse_append, List.reverse_cons, List.reverse_nil,
    List.nil_append, List.singleton_append, Option.any_some, beq_iff_eq] at h
  -- The brace ends the line, and so it comes right before the line feed.
  have hline : (cs.reverse.takeWhile (· != '\n')).reverse.getLast? = some '}' := by
    have hsuffix : ['}'] <:+ (cs.reverse.takeWhile (· != '\n')).reverse := by
      rw [← h, trimStart]
      exact List.dropWhile_suffix isBlank
    obtain ⟨front, hfront⟩ := hsuffix
    rw [← hfront, List.getLast?_concat]
  rw [List.getLast?_reverse] at hline
  rw [← List.head?_reverse]
  cases hcs : cs.reverse with
  | nil => simp [hcs] at hline
  | cons c rest =>
    rw [hcs, List.takeWhile_cons] at hline
    split at hline
    · exact hline
    · simp at hline

end Writer

/-- The reader has read what the writer has written, at the same depth. When the last line is a
closing brace, it is the one that ended the last block. -/
structure Follows (unit : List Char) (r : Reader) (w : Writer) : Prop where
  unit_eq : w.unit.toList = unit
  depth_eq : w.depth = r.depth
  reaches : Reaches unit w.code.toList r
  joins : Writer.closesBlock w.code.toList = true → ∃ code inner,
    w.code.toList = code ++ (indentation unit r.depth ++ ['}'] ++ ['\n']) ∧
      Reaches unit code inner ∧ inner.closeBlock? = some r

namespace Follows

variable {unit : List Char} {r outer : Reader} {w : Writer}

theorem start (unit : String) : Follows unit.toList Reader.start { unit } where
  unit_eq := rfl
  depth_eq := rfl
  reaches := ⟨[], by simp, by simp, rfl⟩
  joins h := by simp [Writer.closesBlock, Writer.lastLine?] at h

theorem reaches_pushLine (h : Follows unit r w) (hunit : IsUnit unit) {s : String}
    (hline : IsLine s.toList) {t : Reader}
    (hread : r.readLine unit (indentation unit r.depth ++ s.toList) = some t) :
    Reaches unit (w.pushLine s).code.toList t := by
  rw [Writer.toList_pushLine, h.unit_eq, h.depth_eq]
  exact h.reaches.line (hline.indent hunit.no_feed r.depth) hread

/-- A line that does not end with a closing brace is not joined with the next. -/
theorem not_closesBlock_pushLine {s : String} (hne : s.toList ≠ [])
    (hlast : s.toList.getLast? ≠ some '}') :
    ¬ Writer.closesBlock (w.pushLine s).code.toList = true := by
  intro hclose
  rw [Writer.toList_pushLine, ← List.append_assoc, ← List.append_assoc] at hclose
  have hbrace := Writer.getLast_of_closesBlock hclose
  rw [List.getLast?_append, List.getLast?_eq_some_getLast hne, Option.some_or,
    ← List.getLast?_eq_some_getLast hne] at hbrace
  exact hlast hbrace

theorem statement (h : Follows unit r w) (hunit : IsUnit unit) {s : String}
    (hs : IsStatement s.toList) :
    Follows unit (r.add (.statement s.toList)) (w.pushLine s) where
  unit_eq := h.unit_eq
  depth_eq := h.depth_eq
  reaches := h.reaches_pushLine hunit hs.isLine (Reader.readLine_statement unit r hs)
  joins hclose := by
    refine absurd hclose (not_closesBlock_pushLine hs.isLine.ne_nil ?_)
    intro hlast
    have := hs.last
    simp [hlast] at this

theorem openBlock (h : Follows unit r w) (hunit : IsUnit unit) {header s : String}
    (hheader : IsHeader header.toList) (hs : s.toList = headerLine header.toList) :
    Follows unit (r.openBlock header.toList) (w.pushLine s).indent where
  unit_eq := h.unit_eq
  depth_eq := congrArg (· + 1) h.depth_eq
  reaches := by
    refine h.reaches_pushLine hunit (by rw [hs]; exact hheader.isLine) ?_
    rw [hs]
    exact Reader.readLine_opening unit r hheader
  joins hclose := by
    refine absurd hclose (not_closesBlock_pushLine (s := s) ?_ ?_)
    · rw [hs]
      exact hheader.isLine.ne_nil
    · rw [hs, ← List.nil_append (headerLine header.toList), getLast?_headerLine]
      decide

/-- Opening a block where it may go on the line of a closing brace. -/
theorem continueBlock (h : Follows unit r w) (hunit : IsUnit unit) {header s : String}
    (hheader : IsHeader header.toList) (hs : s.toList = headerLine header.toList) :
    Follows unit (r.openBlock header.toList) (w.continueBlock s).indent := by
  unfold Writer.continueBlock
  split
  · next hclose =>
    obtain ⟨code, inner, hcode, hreaches, hinner⟩ := h.joins hclose
    have hjoined : (String.ofList w.code.toList.dropLast ++ " " ++ s ++ "\n").toList =
        code ++ (indentation unit r.depth ++ '}' :: ' ' :: headerLine header.toList ++ ['\n']) := by
      rw [hcode, ← List.append_assoc, List.dropLast_concat]
      simp [hs]
    refine ⟨h.unit_eq, congrArg (· + 1) h.depth_eq, ?_, ?_⟩
    · change Reaches unit (String.ofList w.code.toList.dropLast ++ " " ++ s ++ "\n").toList _
      rw [hjoined]
      exact hreaches.line (hheader.isLine_reopen.indent hunit.no_feed r.depth)
        (Reader.readLine_reopen hunit hinner header.toList)
    · intro hagain
      have hlast : (w.code.toList.dropLast ++ [' '] ++ headerLine header.toList).getLast? =
          some '}' := by
        refine Writer.getLast_of_closesBlock ?_
        simpa [Writer.indent, hs] using hagain
      rw [getLast?_headerLine] at hlast
      exact absurd hlast (by decide)
  · exact h.openBlock hunit hheader hs

theorem closeBlock (h : Follows unit r w) (hunit : IsUnit unit)
    (hclose : r.closeBlock? = some outer) :
    Follows unit outer (w.deindent.pushLine r"}") := by
  have hdepth : w.deindent.depth = outer.depth := by
    have h1 := h.depth_eq
    have h2 := Reader.depth_of_closeBlock? hclose
    simp only [Writer.deindent]
    omega
  have hcode : (w.deindent.pushLine r"}").code.toList =
      w.code.toList ++ (indentation unit outer.depth ++ ['}'] ++ ['\n']) := by
    rw [Writer.toList_pushLine, hdepth, ← h.unit_eq]
    rfl
  refine ⟨h.unit_eq, hdepth, ?_, fun _ => ⟨_, r, hcode, h.reaches, hclose⟩⟩
  rw [hcode]
  exact h.reaches.line (isLine_brace.indent hunit.no_feed outer.depth)
    (Reader.readLine_brace hunit hclose)

end Follows

end Stencil.Code
