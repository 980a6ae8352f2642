/-
The outline of a source: its non-blank lines, each nested below the line it is indented under. One
leading tab is one level.

The lines are put into an arena, a list of entries that refer to each other by their places. The
first entry stands for the whole source. The builder reads line by line and never compares two
lines: it keeps the entry whose children it reads and the entry of the last line. A line that is
indented by one more than the block is its next child, a line further in opens the last line as
the block, and for a line further out the builder climbs from parent to parent.

An outline is what the children of the first entry say, read from the last entry back.
-/
import Stencil.Text.Blank
import Stencil.Text.Lines

namespace Stencil

/-- A non-blank line of a source. -/
structure Line where
  /-- Counted from one, blank lines included. -/
  number : Nat
  /-- Leading tabs. -/
  indent : Nat
  /-- What follows the leading tabs. -/
  text : String
  deriving DecidableEq, Repr

/-- How many levels one line may close. -/
inductive DedentPolicy where
  | singleLevel
  | anyLevel
  deriving DecidableEq, Repr

/-- A line that fits nowhere below the line before it. -/
structure IndentationError where
  line : Nat
  indent : Nat
  /-- The indentation of the block that was open, `-1` when it is the whole source. -/
  blockIndent : Int
  deriving DecidableEq, Repr

def IndentationError.message (e : IndentationError) : String :=
  s!"invalid indentation on line {e.line}: {e.indent} tab(s) inside a block at depth {e.blockIndent}"

/-- A line as it stands in the source. -/
def Line.ofChars (number : Nat) (cs : List Char) : Line where
  number := number
  indent := (cs.takeWhile (· == '\t')).length
  text := String.ofList (cs.dropWhile (· == '\t'))

/-- The non-blank lines of a source in order. -/
def contentLines (source : String) : List Line :=
  ((Text.lines source.toList).zipIdx 1).filterMap fun (cs, number) =>
    if Text.allBlank cs then none else some (Line.ofChars number cs)

/-! ## The arena -/

/-- A line in an arena, which knows other lines by their places. -/
structure Entry where
  text : String
  /-- Leading tabs. -/
  indent : Int
  line : Nat
  parent : Option Nat
  children : List Nat
  deriving DecidableEq, Repr

/-- The lines read so far, after an entry for the whole source. -/
abbrev Arena := List Entry

/-- The entry for the whole source, which counts as indented by `-1`. -/
def Entry.root : Entry := ⟨"", -1, 0, none, []⟩

/-- The entry of a line that has no children yet. -/
def Entry.ofLine (line : Line) (parent : Nat) : Entry :=
  ⟨line.text, line.indent, line.number, some parent, []⟩

/-- The line that an entry was made from. -/
def Entry.toLine (e : Entry) : Line := ⟨e.line, e.indent.toNat, e.text⟩

namespace Arena

/-- The indentation of an entry, `-1` where there is none. -/
def indentAt (arena : Arena) (id : Nat) : Int := arena[id]?.elim (-1) Entry.indent

/-- The parent of an entry. -/
def parentAt (arena : Arena) (id : Nat) : Option Nat := arena[id]?.bind Entry.parent

/-- Goes from an entry to its parent `levels` times. -/
def climb (arena : Arena) : Nat → Nat → Option Nat
  | 0, id => some id
  | levels + 1, id =>
    match arena.parentAt id with
    | some parent => arena.climb levels parent
    | none => none

/-- Adds a line as the last child of the block. -/
def attach (arena : Arena) (block : Nat) (line : Line) : Arena :=
  (arena ++ [Entry.ofLine line block]).modify block fun e =>
    { e with children := e.children ++ [arena.length] }

/-- An arena under construction. -/
structure Builder where
  arena : Arena
  /-- The entry whose children are being read. -/
  block : Nat
  /-- The entry of the last line. -/
  last : Nat

namespace Builder

def start : Builder := ⟨[Entry.root], 0, 0⟩

/-- The entry that a line with this many tabs is a child of. -/
def blockFor? (policy : DedentPolicy) (b : Builder) (tabs : Nat) : Option Nat :=
  let indent : Int := tabs
  let blockIndent := b.arena.indentAt b.block
  if indent = blockIndent + 1 then
    some b.block
  else if indent = blockIndent + 2 then
    -- At the start there is no line to nest under.
    if b.last = b.block then none else some b.last
  else if indent ≤ blockIndent then
    let levels := (blockIndent - indent + 1).toNat
    if 1 < levels ∧ policy = .singleLevel then none else b.arena.climb levels b.block
  else
    none

/-- Adds the next line, which becomes the last one. -/
def add (policy : DedentPolicy) (b : Builder) (line : Line) : Except IndentationError Builder :=
  match b.blockFor? policy line.indent with
  | some block => .ok ⟨b.arena.attach block line, block, b.arena.length⟩
  | none => .error ⟨line.number, line.indent, b.arena.indentAt b.block⟩

/-- Adds lines in order, up to the first that fits nowhere. -/
def addAll (policy : DedentPolicy) : Builder → List Line → Except IndentationError Builder
  | b, [] => .ok b
  | b, line :: lines =>
    match b.add policy line with
    | .ok b => b.addAll policy lines
    | .error e => .error e

end Builder

/-- The arena of a source, or its first line that fits nowhere. -/
def parse (policy : DedentPolicy) (source : String) : Except IndentationError Arena :=
  match Builder.start.addAll policy (contentLines source) with
  | .ok b => .ok b.arena
  | .error e => .error e

end Arena

/-! ## The outline -/

/-- A line with the lines nested below it. -/
structure Node where
  line : Line
  children : List Node

/-- The top-level lines of a source. -/
abbrev Outline := List Node

/-- The nodes of entries whose first stands at `place`. Children stand behind their parents, so
they are among the nodes that were read before. -/
def Arena.nodesFrom (place : Nat) : Arena → List Node
  | [] => []
  | e :: es =>
    let later := nodesFrom (place + 1) es
    ⟨e.toLine, e.children.filterMap fun id => later[id - (place + 1)]?⟩ :: later

/-- What is nested below the entry for the whole source. -/
def Arena.outline (arena : Arena) : Outline := (arena.nodesFrom 0).head?.elim [] Node.children

/-- The outline of a source, or its first line that fits nowhere. -/
def Outline.parse (policy : DedentPolicy) (source : String) : Except IndentationError Outline :=
  match Arena.parse policy source with
  | .ok arena => .ok arena.outline
  | .error e => .error e

end Stencil
