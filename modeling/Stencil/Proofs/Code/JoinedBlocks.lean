/-
Which blocks are joined. A writer looks at the last line of its code to tell whether an `else` goes
on with the block before it. It is never misled, whatever the texts of a body hold: a statement ends
with a parenthesis or a semicolon and an opening with an opening brace, so the last line is a
closing brace exactly if the last thing written was a block (`Stands`). This holds for an empty
writer, each instruction that is written keeps it, and so it holds wherever the writer comes to an
instruction (`stands_approach`).
-/
import Stencil.Compile
import Stencil.Proofs.Dialect.Statements

namespace Stencil

open Text Code

def Instruction.isBlock : Instruction → Bool
  | control _ _ => true
  | _ => false

/-! ## Places -/

/-- A place for an instruction in a body. -/
inductive Place where
  /-- In the body itself, between other instructions. -/
  | here (before after : Instructions)
  /-- In the body of a block. -/
  | inside (before : Instructions) (header : Header) (place : Place) (after : Instructions)

namespace Place

/-- The body with an instruction at the place. -/
def fill : Place → Instruction → Instructions
  | here before after, i => before ++ i :: after
  | inside before header place after, i => before ++ .control header (place.fill i) :: after

/-- The number of blocks around the place. -/
def depth : Place → Nat
  | here _ _ => 0
  | inside _ _ place _ => place.depth + 1

/-- The instruction right before the place in the same list. -/
def previous? : Place → Option Instruction
  | here before _ => before.getLast?
  | inside _ _ place _ => place.previous?

/-- The place comes right behind a block. -/
def followsBlock (place : Place) : Bool := place.previous?.any Instruction.isBlock

/-- The writer when it comes to the place. -/
def approach (d : Dialect) : Place → Writer → Writer
  | here before _, w => d.writeBody before w
  | inside before header place _, w =>
    place.approach d (d.openBlock header (d.writeBody before w)).indent

/-- The writer from behind the place to the end of the body. -/
def leave (d : Dialect) : Place → Writer → Writer
  | here _ after, w => d.writeBody after w
  | inside _ _ place after, w =>
    d.writeBody after (((place.leave d w).deindent).pushLine r"}")

/-- The place with one more instruction in front of the body. -/
def behind (i : Instruction) : Place → Place
  | here before after => here (i :: before) after
  | inside before header place after => inside (i :: before) header place after

theorem fill_behind (i j : Instruction) (place : Place) :
    (place.behind i).fill j = i :: place.fill j := by
  cases place <;> rfl

/-- Every instruction of a body, at any depth, is at a place. -/
theorem exists_of_mem_walk {i : Instruction} (body : Instructions) (h : i ∈ body.walk) :
    ∃ place : Place, place.fill i = body := by
  cases body with
  | nil => cases h
  | cons j js =>
    rw [Instructions.walk, List.mem_append] at h
    rcases h with h | h
    · cases j with
      | control header inner =>
        rw [Instructions.walkOne, List.mem_cons] at h
        rcases h with rfl | h
        · exact ⟨here [] js, rfl⟩
        · obtain ⟨place, rfl⟩ := exists_of_mem_walk inner h
          exact ⟨inside [] header place js, rfl⟩
      | literal | expression | call =>
        obtain rfl := List.mem_singleton.mp h
        exact ⟨here [] js, rfl⟩
    · obtain ⟨place, rfl⟩ := exists_of_mem_walk js h
      exact ⟨place.behind j, fill_behind j i place⟩

end Place

/-! ## The last line -/

namespace Code

theorem lastLine?_concat {front line : List Char} (hfront : WholeLines front)
    (hline : '\n' ∉ line) :
    Writer.lastLine? (front ++ (line ++ ['\n'])) = some line := by
  have hstop : front.reverse.takeWhile (· != '\n') = [] := by
    rcases hfront with rfl | hlast
    · rfl
    · rw [← List.head?_reverse] at hlast
      obtain ⟨cs, hcs⟩ := List.head?_eq_some_iff.mp hlast
      simp [hcs]
  have hrun : ∀ c ∈ line.reverse, (c != '\n') = true := by
    intro c hc
    rw [bne_iff_ne]
    rintro rfl
    exact hline (List.mem_reverse.mp hc)
  simp only [Writer.lastLine?, List.reverse_append, List.reverse_cons, List.reverse_nil,
    List.nil_append, List.cons_append]
  rw [List.takeWhile_append_of_pos hrun, hstop, List.append_nil, List.reverse_reverse]

/-- A closing brace on a line of its own is recognized. -/
theorem closesBlock_brace {front unit : List Char} (hfront : WholeLines front)
    (hblank : ∀ c ∈ unit, isBlank c = true) (hfeed : '\n' ∉ unit) (depth : Nat) :
    Writer.closesBlock (front ++ (indentation unit depth ++ ['}', '\n'])) = true := by
  have hindent : ∀ c ∈ indentation unit depth, isBlank c = true := by
    intro c hc
    obtain ⟨u, hu, hcu⟩ := List.mem_flatten.mp hc
    exact hblank c (List.eq_of_mem_replicate hu ▸ hcu)
  have hline : '\n' ∉ indentation unit depth ++ ['}'] := by
    rw [List.mem_append, not_or]
    exact ⟨feed_not_mem_indentation hfeed depth, by decide⟩
  have hlast := lastLine?_concat hfront hline
  rw [List.append_assoc, List.singleton_append] at hlast
  have htrim : trimStart (indentation unit depth ++ ['}']) = ['}'] := by
    rw [trimStart, List.dropWhile_append_of_pos hindent]
    rfl
  rw [Writer.closesBlock, hlast, Option.any_some, htrim]
  rfl

end Code

/-! ## What the last line says -/

/-- A text that ends, but not with a closing brace. -/
def EndsOpen (s : String) : Prop := ∃ c, s.toList.getLast? = some c ∧ c ≠ '}'

theorem endsOpen_append (front : String) {s : String} (h : EndsOpen s) : EndsOpen (front ++ s) := by
  obtain ⟨c, hlast, hc⟩ := h
  exact ⟨c, by rw [String.toList_append, List.getLast?_append, hlast, Option.some_or], hc⟩

namespace Dialect

/-- A dialect in which no statement ends like a block, whatever its texts are, and lines are
indented by blanks. -/
structure Guarded (d : Dialect) : Prop where
  blank : ∀ c ∈ d.indentUnit.toList, isBlank c = true
  no_feed : '\n' ∉ d.indentUnit.toList
  literal : ∀ text, EndsOpen (d.literalStatement text)
  expression : ∀ expr escape, EndsOpen (d.expressionStatement expr escape)
  call : ∀ name args, EndsOpen (d.callStatement name args)

theorem guarded_go : Guarded .go where
  blank := List.all_eq_true.mp (by decide)
  no_feed := by decide
  literal _ := endsOpen_append _ ⟨')', by decide, by decide⟩
  expression _ _ := endsOpen_append _ ⟨')', by decide, by decide⟩
  call _ _ := endsOpen_append _ ⟨')', by decide, by decide⟩

theorem guarded_rust (runtime : String) : Guarded (.rust runtime) where
  blank := by
    change ∀ c ∈ Rust.indentUnit.toList, isBlank c = true
    exact List.all_eq_true.mp (by decide)
  no_feed := by
    change '\n' ∉ Rust.indentUnit.toList
    decide
  literal _ := endsOpen_append _ ⟨';', by decide, by decide⟩
  expression _ _ := endsOpen_append _ ⟨';', by decide, by decide⟩
  call _ _ := endsOpen_append _ ⟨';', by decide, by decide⟩

end Dialect

theorem Options.guarded_dialect (options : Options) : options.dialect.Guarded := by
  unfold Options.dialect
  cases options.target with
  | rust => exact Dialect.guarded_rust options.runtimePath
  | go => exact Dialect.guarded_go

/-- A writer at a depth, with whole lines, the last of them a closing brace exactly if it stands
behind a block. -/
structure Stands (unit : List Char) (depth : Nat) (behind : Bool) (w : Writer) : Prop where
  unit_eq : w.unit.toList = unit
  depth_eq : w.depth = depth
  whole : WholeLines w.code.toList
  closes : Writer.closesBlock w.code.toList = behind
  brace : behind = true → ∃ front, WholeLines front ∧
    w.code.toList = front ++ (indentation unit depth ++ ['}', '\n'])

namespace Stands

variable {unit : List Char} {depth : Nat} {behind : Bool} {w : Writer}

theorem start (unit : String) : Stands unit.toList 0 false { unit } where
  unit_eq := rfl
  depth_eq := rfl
  whole := .inl (by simp)
  closes := by simp [Writer.closesBlock, Writer.lastLine?]
  brace h := by cases h

/-- A statement is no closing brace. -/
theorem statement (h : Stands unit depth behind w) {s : String} (hs : EndsOpen s) :
    Stands unit depth false (w.pushLine s) where
  unit_eq := h.unit_eq
  depth_eq := h.depth_eq
  whole := by
    rw [Writer.toList_pushLine, ← List.append_assoc]
    exact wholeLines_concat _
  closes := by
    obtain ⟨c, hlast, hc⟩ := hs
    have hne : s.toList ≠ [] := by
      intro hnil
      simp [hnil] at hlast
    rw [← Bool.not_eq_true]
    refine Follows.not_closesBlock_pushLine hne ?_
    rw [hlast]
    exact fun heq => hc (Option.some.inj heq)
  brace hfalse := by cases hfalse

/-- The end of a block is a closing brace on a line of its own. -/
theorem closeBlock (h : Stands unit (depth + 1) behind w) (hblank : ∀ c ∈ unit, isBlank c = true)
    (hfeed : '\n' ∉ unit) : Stands unit depth true (w.deindent.pushLine r"}") := by
  have hdepth : w.deindent.depth = depth := by
    simp only [Writer.deindent, h.depth_eq, Nat.add_sub_cancel]
  have hcode : (w.deindent.pushLine r"}").code.toList =
      w.code.toList ++ (indentation unit depth ++ ['}', '\n']) := by
    rw [Writer.toList_pushLine, hdepth, ← h.unit_eq, List.append_assoc]
    rfl
  refine ⟨h.unit_eq, hdepth, ?_, ?_, fun _ => ⟨_, h.whole, hcode⟩⟩
  · rw [hcode]
    exact .inr (by simp [List.getLast?_append])
  · rw [hcode]
    exact closesBlock_brace h.whole hblank hfeed depth

end Stands

/-! ## Openings -/

/-- The opening goes behind the brace on the last line, which it ends. -/
def JoinsBrace (indent line code opened : List Char) : Prop :=
  ∃ front, WholeLines front ∧ code = front ++ (indent ++ ['}', '\n']) ∧
    opened = front ++ (indent ++ ['}', ' '] ++ line ++ ['\n'])

/-- The opening goes on a line of its own. -/
def TakesLine (indent line code opened : List Char) : Prop :=
  WholeLines code ∧ opened = code ++ (indent ++ line ++ ['\n'])

theorem JoinsBrace.not_takesLine {indent line code opened : List Char}
    (h : JoinsBrace indent line code opened) : ¬ TakesLine indent line code opened := by
  rintro ⟨-, hopened⟩
  obtain ⟨front, -, rfl, hjoined⟩ := h
  simp [hjoined] at hopened

namespace Dialect

variable {d : Dialect} {unit : List Char} {depth : Nat} {behind : Bool} {w : Writer}

@[simp] theorem unit_openBlock (d : Dialect) (header : Header) (w : Writer) :
    (d.openBlock header w).unit = w.unit := by
  unfold Dialect.openBlock Writer.continueBlock
  dsimp only
  split
  · split <;> rfl
  · rfl

@[simp] theorem depth_openBlock (d : Dialect) (header : Header) (w : Writer) :
    (d.openBlock header w).depth = w.depth := by
  unfold Dialect.openBlock Writer.continueBlock
  dsimp only
  split
  · split <;> rfl
  · rfl

/-- The two ways to open a block, told by the header and the last line. -/
theorem code_openBlock (d : Dialect) (header : Header) (w : Writer) :
    (header.isElse = true ∧ Writer.closesBlock w.code.toList = true ∧
        (d.openBlock header w).code.toList = w.code.toList.dropLast ++
          (' ' :: headerLine (d.blockHeader header).toList ++ ['\n'])) ∨
      (¬ (header.isElse = true ∧ Writer.closesBlock w.code.toList = true) ∧
        (d.openBlock header w).code.toList = w.code.toList ++
          (indentation w.unit.toList w.depth ++ headerLine (d.blockHeader header).toList
            ++ ['\n'])) := by
  have hline : (d.blockHeader header ++ r" {").toList =
      headerLine (d.blockHeader header).toList := by
    simp [headerLine]
  have hown := w.toList_pushLine (d.blockHeader header ++ r" {")
  rw [hline] at hown
  unfold Dialect.openBlock Writer.continueBlock
  dsimp only
  split
  · next helse =>
    split
    · next hclose => exact .inl ⟨helse, hclose, by simp [headerLine]⟩
    · next hclose => exact .inr ⟨fun hboth => hclose hboth.2, hown⟩
  · next helse => exact .inr ⟨fun hboth => helse hboth.1, hown⟩

/-- An opening is an `else` behind a block, and joins it, or has a line of its own. -/
theorem openBlock_cases (h : Stands unit depth behind w) (header : Header) :
    (header.isElse = true ∧ behind = true ∧
        JoinsBrace (indentation unit depth) (headerLine (d.blockHeader header).toList)
          w.code.toList (d.openBlock header w).code.toList) ∨
      (¬ (header.isElse = true ∧ behind = true) ∧
        TakesLine (indentation unit depth) (headerLine (d.blockHeader header).toList)
          w.code.toList (d.openBlock header w).code.toList) := by
  have hcode := code_openBlock d header w
  rw [h.closes, h.unit_eq, h.depth_eq] at hcode
  rcases hcode with ⟨helse, hbehind, hopened⟩ | ⟨hnot, hopened⟩
  · -- The last line is the brace of the block before; only its line feed is taken back.
    obtain ⟨front, hfront, hcode⟩ := h.brace hbehind
    have hdrop : w.code.toList.dropLast = front ++ (indentation unit depth ++ ['}']) := by
      rw [hcode, show ['}', '\n'] = ['}'] ++ ['\n'] from rfl, ← List.append_assoc,
        ← List.append_assoc, List.dropLast_concat, List.append_assoc]
    refine .inl ⟨helse, hbehind, front, hfront, hcode, ?_⟩
    simp [hopened, hdrop]
  · exact .inr ⟨hnot, h.whole, hopened⟩

/-- Whichever way it is opened, the writer stands behind no block in the body of the new one. -/
theorem stands_openBlock (h : Stands unit depth behind w) (header : Header) :
    Stands unit (depth + 1) false (d.openBlock header w).indent := by
  obtain ⟨front, hcode⟩ : ∃ front, (d.openBlock header w).indent.code.toList =
      front ++ headerLine (d.blockHeader header).toList ++ ['\n'] := by
    rcases code_openBlock d header w with ⟨-, -, hopened⟩ | ⟨-, hopened⟩
    · exact ⟨w.code.toList.dropLast ++ [' '], by simp [Writer.indent, hopened]⟩
    · exact ⟨w.code.toList ++ indentation w.unit.toList w.depth, by simp [Writer.indent, hopened]⟩
  constructor
  · simpa [Writer.indent] using h.unit_eq
  · simpa [Writer.indent] using h.depth_eq
  · rw [hcode]
    exact wholeLines_concat _
  · rw [← Bool.not_eq_true, hcode]
    intro hclose
    have hlast := Writer.getLast_of_closesBlock hclose
    rw [getLast?_headerLine] at hlast
    cases hlast
  · intro hfalse
    cases hfalse

mutual

/-- Writing an instruction leaves the writer behind it. -/
theorem stands_writeInstruction (hd : d.Guarded) (i : Instruction)
    {depth : Nat} {behind : Bool} {w : Writer} (h : Stands d.indentUnit.toList depth behind w) :
    Stands d.indentUnit.toList depth i.isBlock (d.writeInstruction i w) := by
  cases i with
  | literal text => exact h.statement (hd.literal text)
  | expression expr escape => exact h.statement (hd.expression expr escape)
  | call name args => exact h.statement (hd.call name args)
  | control header body =>
    have hinner := stands_writeBody hd body (stands_openBlock (d := d) h header)
    exact hinner.closeBlock hd.blank hd.no_feed

/-- Writing a body leaves the writer behind its last instruction. -/
theorem stands_writeBody (hd : d.Guarded) (body : Instructions)
    {depth : Nat} {behind : Bool} {w : Writer} (h : Stands d.indentUnit.toList depth behind w) :
    Stands d.indentUnit.toList depth ((body.getLast?.map Instruction.isBlock).getD behind)
      (d.writeBody body w) := by
  cases body with
  | nil => exact h
  | cons i is =>
    have hrest := stands_writeBody hd is (stands_writeInstruction hd i h)
    -- Of an empty rest, what the writer stands behind is `i`, whatever it stood behind before.
    have hlast : (is.getLast?.map Instruction.isBlock).getD i.isBlock =
        ((i :: is).getLast?.map Instruction.isBlock).getD behind := by
      rw [List.getLast?_cons]
      cases is.getLast? <;> rfl
    rw [← hlast]
    exact hrest

end

/-- **The last line tells what stands before a place.** -/
theorem stands_approach (hd : d.Guarded) (place : Place) {depth : Nat} {w : Writer}
    (h : Stands d.indentUnit.toList depth false w) :
    Stands d.indentUnit.toList (depth + place.depth) place.followsBlock (place.approach d w) := by
  induction place generalizing depth w with
  | here before after =>
    have hbefore := stands_writeBody hd before h
    have hfollows : (Place.here before after).followsBlock =
        (before.getLast?.map Instruction.isBlock).getD false := by
      change before.getLast?.any Instruction.isBlock = _
      cases before.getLast? <;> rfl
    rw [hfollows]
    exact hbefore
  | inside before header place after ih =>
    have hopened := stands_openBlock (d := d) (stands_writeBody hd before h) header
    have hinner := ih hopened
    rw [Nat.add_right_comm] at hinner
    exact hinner

end Dialect

/-! ## What is opened stays -/

/-- The code starts with `front`, and goes on behind it if its last line may be joined. -/
structure Keeps (front : List Char) (w : Writer) : Prop where
  start : front <+: w.code.toList
  ne : Writer.closesBlock w.code.toList = true → front ≠ w.code.toList

namespace Keeps

variable {front : List Char} {w : Writer}

/-- Code that goes on behind what is kept. -/
theorem of_append {code more : List Char} (h : front <+: code) (hmore : more ≠ [])
    (hcode : w.code.toList = code ++ more) : Keeps front w where
  start := hcode ▸ h.trans (List.prefix_append code more)
  ne _ heq := by
    have hle := h.length_le
    have hpos := List.length_pos_iff.mpr hmore
    have hlength := congrArg List.length heq
    rw [hcode, List.length_append] at hlength
    omega

theorem pushLine (h : front <+: w.code.toList) (s : String) : Keeps front (w.pushLine s) :=
  of_append h (by simp) (w.toList_pushLine s)

/-- A line feed that is taken back was not part of what is kept. -/
theorem openBlock (h : Keeps front w) (d : Dialect) (header : Header) :
    Keeps front (d.openBlock header w) := by
  rcases Dialect.code_openBlock d header w with ⟨-, hclose, hopened⟩ | ⟨-, hopened⟩
  · have hne : w.code.toList ≠ [] := by
      intro hnil
      rw [hnil] at hclose
      cases hclose
    have hshort : front <+: w.code.toList.dropLast := by
      have hsplit := List.dropLast_concat_getLast hne
      have hstart := h.start
      rw [← hsplit, List.prefix_concat_iff] at hstart
      exact hstart.resolve_left fun heq => h.ne hclose (heq.trans hsplit)
    exact of_append hshort (by simp) hopened
  · exact of_append h.start (by simp) hopened

end Keeps

namespace Dialect

variable {d : Dialect} {front : List Char}

mutual

theorem keeps_writeInstruction (i : Instruction) {w : Writer} (h : Keeps front w) :
    Keeps front (d.writeInstruction i w) := by
  cases i with
  | literal text => exact .pushLine h.start _
  | expression expr escape => exact .pushLine h.start _
  | call name args => exact .pushLine h.start _
  | control header body =>
    -- Only the depth changes from here to the body, and `Keeps` does not look at it.
    have hopened : Keeps front (d.openBlock header w).indent :=
      ⟨(h.openBlock d header).start, (h.openBlock d header).ne⟩
    have hinner := keeps_writeBody body hopened
    exact .pushLine (w := (d.writeBody body _).deindent) hinner.start _

theorem keeps_writeBody (body : Instructions) {w : Writer} (h : Keeps front w) :
    Keeps front (d.writeBody body w) := by
  cases body with
  | nil => exact h
  | cons i is => exact keeps_writeBody is (keeps_writeInstruction i h)

end

theorem keeps_leave (place : Place) {w : Writer} (h : Keeps front w) :
    Keeps front (place.leave d w) := by
  induction place with
  | here before after => exact keeps_writeBody after h
  | inside before header place after ih =>
    exact keeps_writeBody after (.pushLine (w := (place.leave d w).deindent) ih.start _)

theorem writeBody_append (a b : Instructions) (w : Writer) :
    d.writeBody (a ++ b) w = d.writeBody b (d.writeBody a w) := by
  induction a generalizing w with
  | nil => rfl
  | cons i a ih => exact ih (d.writeInstruction i w)

/-- The writer comes to the place, writes the instruction there, and goes on. -/
theorem writeBody_fill (place : Place) (i : Instruction) (w : Writer) :
    d.writeBody (place.fill i) w = place.leave d (d.writeInstruction i (place.approach d w)) := by
  induction place generalizing w with
  | here before after => exact writeBody_append before (i :: after) w
  | inside before header place after ih =>
    rw [Place.fill, writeBody_append, writeBody, writeInstruction, ih]
    rfl

/-- The opening of a block is not changed by what is written after it. -/
theorem prefix_streamingBody (hd : d.Guarded) (place : Place) (header : Header)
    (inner : Instructions) :
    (d.openBlock header (place.approach d { unit := d.indentUnit })).code.toList <+:
      (d.streamingBody (place.fill (.control header inner))).toList := by
  have hstands := stands_approach hd place (Stands.start d.indentUnit)
  have hopened := stands_openBlock (d := d) hstands header
  -- The opening ends with an opening brace, so its own line feed is never taken back.
  have hkeeps : Keeps (d.openBlock header (place.approach d { unit := d.indentUnit })).code.toList
      (d.openBlock header (place.approach d { unit := d.indentUnit })).indent := by
    refine ⟨List.prefix_refl _, fun hclose => ?_⟩
    rw [hopened.closes] at hclose
    cases hclose
  have hblock := Keeps.pushLine (w := (d.writeBody inner _).deindent)
    (keeps_writeBody inner hkeeps).start r"}"
  rw [streamingBody, written, writeBody_fill]
  exact (keeps_leave place hblock).start

/-- How the block at a place is opened when its body is written: on the line that closes the block
before it, if it is an `else` right behind a block, and else on a line of its own, indented to its
depth. -/
theorem openBlock_approach (hd : d.Guarded) (place : Place) (header : Header) :
    let w := place.approach d { unit := d.indentUnit }
    let opened := (d.openBlock header w).code.toList
    let indent := indentation d.indentUnit.toList place.depth
    let line := headerLine (d.blockHeader header).toList
    (JoinsBrace indent line w.code.toList opened ↔
        header.isElse = true ∧ place.followsBlock = true) ∧
      (TakesLine indent line w.code.toList opened ↔
        ¬ (header.isElse = true ∧ place.followsBlock = true)) := by
  intro w opened indent line
  have hstands : Stands d.indentUnit.toList place.depth place.followsBlock w := by
    have happroach := stands_approach hd place (Stands.start d.indentUnit)
    rwa [Nat.zero_add] at happroach
  rcases openBlock_cases (d := d) hstands header with ⟨helse, hfollows, hjoins⟩ | ⟨hnot, htakes⟩
  · exact ⟨iff_of_true hjoins ⟨helse, hfollows⟩,
      iff_of_false hjoins.not_takesLine (not_not_intro ⟨helse, hfollows⟩)⟩
  · exact ⟨iff_of_false (fun hjoins => hjoins.not_takesLine htakes) hnot,
      iff_of_true htakes hnot⟩

/-- **A block is joined exactly if it is an `else` behind a block.** Every instruction of a body is
at a place, and whatever block is at a place, the code of the body starts with the code before the
place and the opening of the block. The opening goes on the line that closes the instruction before
it if that is a block too and the header is an `else`. Otherwise it has a line of its own, indented
to its depth. -/
theorem else_joined_iff (options : Options) (body : Instructions) :
    (∀ i ∈ body.walk, ∃ place : Place, place.fill i = body) ∧
      ∀ (place : Place) (header : Header) (inner : Instructions),
        place.fill (.control header inner) = body →
          let d := options.dialect
          let w := place.approach d { unit := d.indentUnit }
          let opened := (d.openBlock header w).code.toList
          let indent := indentation d.indentUnit.toList place.depth
          let line := headerLine (d.blockHeader header).toList
          opened <+: (d.streamingBody body).toList ∧
            (JoinsBrace indent line w.code.toList opened ↔
              header.isElse = true ∧ place.followsBlock = true) ∧
            (TakesLine indent line w.code.toList opened ↔
              ¬ (header.isElse = true ∧ place.followsBlock = true)) := by
  have hd : options.dialect.Guarded := options.guarded_dialect
  refine ⟨fun i hi => Place.exists_of_mem_walk body hi, fun place header inner hbody => ?_⟩
  refine ⟨?_, openBlock_approach hd place header⟩
  rw [← hbody]
  exact prefix_streamingBody hd place header inner

/-- An expression that ends like a block, an `else` behind it in the same list, one behind a block,
and one that is first in its list. -/
def misleading : Instructions :=
  [.control (.raw "if a")
      [.expression (String.ofList ['b', '\n', '}']) false, .control (.raw "else c") []],
    .control (.raw "else") [.control (.raw "else") []]]

def misleadingCode : String :=
  r"if a {
	_b.WriteString(b
})
	else c {
	}
} else {
	else {
	}
}
"

theorem else_joined_iff_misleading :
    let place : Place := .here (misleading.take 1) []
    let w := place.approach go { unit := go.indentUnit }
    place.fill (.control (.raw "else") [.control (.raw "else") []]) = misleading ∧
      JoinsBrace [] (headerLine "else".toList) w.code.toList
        (go.openBlock (.raw "else") w).code.toList ∧
      go.streamingBody misleading = misleadingCode := by
  intro place w
  have hfill : place.fill (.control (.raw "else") [.control (.raw "else") []]) = misleading := rfl
  have hopened := (else_joined_iff { target := .go } misleading).2 place _ _ hfill
  exact ⟨hfill, hopened.2.1.mpr ⟨by decide +kernel, rfl⟩, by decide +kernel⟩

end Dialect

end Stencil
