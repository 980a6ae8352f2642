/-
Buffers and the pool that keeps them for reuse. The pool hands out the buffer released last,
emptied, and a new one when it has none. It keeps a released buffer only while it holds fewer than
`maxRetained`, and never one that has no room or more room than `maxCapacity`.

A `Session` is a caller's view of a pool: numbered slots, each holding a buffer until it is
released.
-/
namespace Stencil

structure Buffer where
  text : String := ""
  /-- The bytes it has room for. -/
  capacity : Nat := 0
  deriving DecidableEq, Repr

namespace Buffer

/-- How buffers grow: the bytes that one gets beyond those it needs, from the bytes it had room for
and the bytes it needs. -/
abbrev Growth := Nat → Nat → Nat

/-- Appends a text. When it does not fit, the buffer gets room for it, and as much more as the
growth gives. -/
def append (growth : Growth) (b : Buffer) (s : String) : Buffer :=
  let text := b.text ++ s
  let needed := text.utf8ByteSize
  ⟨text, if needed ≤ b.capacity then b.capacity else needed + growth b.capacity needed⟩

structure Pool where
  maxRetained : Nat := 64
  maxCapacity : Nat := 65536
  /-- The buffers kept, the one released last in front. -/
  buffers : List Buffer := []
  deriving DecidableEq, Repr

namespace Pool

/-- Takes an empty buffer. -/
def acquire (p : Pool) : Buffer × Pool :=
  match p.buffers with
  | [] => ({}, p)
  | b :: rest => ({ b with text := "" }, { p with buffers := rest })

/-- Whether the pool keeps a buffer that is released to it. -/
def keeps (p : Pool) (b : Buffer) : Bool :=
  0 < b.capacity && b.capacity ≤ p.maxCapacity && p.buffers.length < p.maxRetained

/-- Gives a buffer back, as it is. -/
def release (p : Pool) (b : Buffer) : Pool :=
  if p.keeps b then { p with buffers := b :: p.buffers } else p

def retained (p : Pool) : Nat := p.buffers.length

end Pool

/-- What a caller does. -/
inductive Step where
  /-- Take a buffer from the pool into a new slot. -/
  | acquire
  /-- Make an empty buffer with this much room in a new slot. -/
  | make (capacity : Nat)
  /-- Append to the buffer of a slot. -/
  | write (slot : Nat) (text : String)
  /-- Give the buffer of a slot to the pool. The slot stays empty. -/
  | release (slot : Nat)
  deriving DecidableEq, Repr

/-- The slots of a caller. A slot stays when its buffer is given back. -/
abbrev Slots := List (Option Buffer)

/-- The buffer of a slot. -/
def Slots.held? (slots : Slots) (slot : Nat) : Option Buffer := (slots[slot]?).join

structure Session where
  pool : Pool
  slots : Slots := []
  deriving DecidableEq, Repr

/-- The session after a step, with the buffer that the step leaves in a slot. A step on an empty
slot is refused. -/
def Session.step (growth : Growth) (s : Session) : Step → Option (Session × Option Buffer)
  | .acquire =>
    let (b, pool) := s.pool.acquire
    some (⟨pool, s.slots ++ [some b]⟩, some b)
  | .make capacity =>
    let b : Buffer := { capacity }
    some ({ s with slots := s.slots ++ [some b] }, some b)
  | .write slot text =>
    (s.slots.held? slot).map fun b =>
      let b := b.append growth text
      ({ s with slots := s.slots.set slot (some b) }, some b)
  | .release slot =>
    (s.slots.held? slot).map fun b => (⟨s.pool.release b, s.slots.set slot none⟩, none)

end Buffer

end Stencil
