/-
Pooling cannot be observed. A pool keeps released buffers with their contents and empties one only
when it hands it out again, so a buffer goes from caller to caller. Callers see texts, and these are
what they would be without a pool: if every buffer were new and a released one were gone.

`Shared` is a pool with any number of callers. Each takes its steps on slots of its own, in any
order among the callers; a step that takes or gives back a buffer is done as one. The room that
buffers have differs with and without a pool, and with how they grow, and the proof is a simulation
that forgets it: slots that hold the same texts hold the same texts after a step (`texts_step`), so
after every step of a run (`trace_eq`).
-/
import Mathlib.Logic.Function.Basic
import Stencil.Buffer.Pool

namespace Stencil.Buffer

/-- What the slots of a caller show. -/
def Slots.texts (slots : Slots) : List (Option String) := slots.map (Option.map Buffer.text)

/-- A step without a pool: every buffer is new, and one that is given back is gone. -/
def Slots.step (growth : Growth) (slots : Slots) : Step → Option Slots
  | .acquire => some (slots ++ [some {}])
  | .make capacity => some (slots ++ [some { capacity }])
  | .write slot text =>
    (slots.held? slot).map fun b => slots.set slot (some (b.append growth text))
  | .release slot => (slots.held? slot).map fun _ => slots.set slot none

section Callers

variable {Caller : Type} [DecidableEq Caller]

/-- A pool and the slots of the callers that share it. -/
structure Shared (Caller : Type) where
  pool : Pool
  slots : Caller → Slots

namespace Shared

/-- A pool before any caller has taken a buffer. -/
def start (pool : Pool) : Shared Caller := ⟨pool, fun _ => []⟩

def texts (s : Shared Caller) (caller : Caller) : List (Option String) := (s.slots caller).texts

/-- A caller takes a step. -/
def step (growth : Growth) (s : Shared Caller) (caller : Caller) (step : Step) :
    Option (Shared Caller) :=
  (Session.step growth ⟨s.pool, s.slots caller⟩ step).map fun (t, _) =>
    ⟨t.pool, Function.update s.slots caller t.slots⟩

/-- The texts in all slots of all callers after each step, up to a step that is refused. -/
def trace (growth : Growth) :
    Shared Caller → List (Caller × Step) → List (Caller → List (Option String))
  | _, [] => []
  | s, (caller, step) :: steps =>
    match s.step growth caller step with
    | none => []
    | some t => t.texts :: trace growth t steps

end Shared

/-- The texts in all slots of all callers after each step without a pool, up to a step that is
refused. -/
def unpooledTrace (growth : Growth) :
    (Caller → Slots) → List (Caller × Step) → List (Caller → List (Option String))
  | _, [] => []
  | slots, (caller, step) :: steps =>
    match (slots caller).step growth step with
    | none => []
    | some taken =>
      let slots := Function.update slots caller taken
      (fun caller => (slots caller).texts) :: unpooledTrace growth slots steps

end Callers

/-! ## One step -/

@[simp] theorem text_append (growth : Growth) (b : Buffer) (s : String) :
    (b.append growth s).text = b.text ++ s :=
  rfl

theorem text_acquire (p : Pool) : p.acquire.1.text = "" := by
  unfold Pool.acquire
  split <;> rfl

namespace Slots

@[simp] theorem texts_concat (slots : Slots) (b : Buffer) :
    Slots.texts (slots ++ [some b]) = slots.texts ++ [some b.text] := by
  simp [Slots.texts]

@[simp] theorem texts_set (slots : Slots) (slot : Nat) (b : Option Buffer) :
    Slots.texts (slots.set slot b) = slots.texts.set slot (b.map Buffer.text) := by
  simp [Slots.texts, List.map_set]

theorem map_text_held? (slots : Slots) (slot : Nat) :
    (slots.held? slot).map Buffer.text = (slots.texts[slot]?).join := by
  unfold Slots.held? Slots.texts
  rw [List.getElem?_map]
  cases slots[slot]? <;> rfl

/-- Slots that show the same texts hold buffers in the same places, with the same texts. -/
theorem held?_cases {slots others : Slots} (h : slots.texts = others.texts) (slot : Nat) :
    (slots.held? slot = none ∧ others.held? slot = none) ∨
      ∃ b c, slots.held? slot = some b ∧ others.held? slot = some c ∧ b.text = c.text := by
  have hheld : (slots.held? slot).map Buffer.text = (others.held? slot).map Buffer.text := by
    rw [map_text_held?, map_text_held?, h]
  cases hb : slots.held? slot with
  | none =>
    cases hc : others.held? slot with
    | none => exact .inl ⟨rfl, rfl⟩
    | some c => simp [hb, hc] at hheld
  | some b =>
    cases hc : others.held? slot with
    | none => simp [hb, hc] at hheld
    | some c => exact .inr ⟨b, c, rfl, rfl, by simpa [hb, hc] using hheld⟩

end Slots

variable (growth otherGrowth : Growth)

/-- **A step with a pool shows what it shows without**, whatever the pool has kept. -/
theorem texts_step {slots others : Slots} (h : slots.texts = others.texts) (p : Pool)
    (step : Step) :
    (Session.step growth ⟨p, slots⟩ step).map (fun t => Slots.texts t.1.slots) =
      (others.step otherGrowth step).map Slots.texts := by
  cases step with
  | acquire => simp [Session.step, Slots.step, h, text_acquire]
  | make capacity => simp [Session.step, Slots.step, h]
  | write slot text =>
    obtain ⟨hb, hc⟩ | ⟨b, c, hb, hc, htext⟩ := Slots.held?_cases h slot
    · simp [Session.step, Slots.step, hb, hc]
    · simp [Session.step, Slots.step, hb, hc, h, htext]
  | release slot =>
    obtain ⟨hb, hc⟩ | ⟨b, c, hb, hc, -⟩ := Slots.held?_cases h slot
    · simp [Session.step, Slots.step, hb, hc]
    · simp [Session.step, Slots.step, hb, hc, h]

/-! ## Runs -/

variable {Caller : Type} [DecidableEq Caller]

/-- The texts of all callers after one of them has changed its slots. -/
theorem texts_update {slots others : Caller → Slots}
    (h : ∀ caller, (slots caller).texts = (others caller).texts) {taken given : Slots}
    (htaken : taken.texts = given.texts) (caller : Caller) :
    ∀ c, (Function.update slots caller taken c).texts =
      (Function.update others caller given c).texts := by
  intro c
  by_cases hc : c = caller
  · subst hc
    simp [htaken]
  · simp [hc, h c]

theorem trace_eq (s : Shared Caller) {slots : Caller → Slots}
    (h : ∀ caller, (s.slots caller).texts = (slots caller).texts) (steps : List (Caller × Step)) :
    s.trace growth steps = unpooledTrace otherGrowth slots steps := by
  induction steps generalizing s slots with
  | nil => rfl
  | cons head steps ih =>
    obtain ⟨caller, step⟩ := head
    have hstep := texts_step growth otherGrowth (h caller) s.pool step
    cases hpooled : Session.step growth ⟨s.pool, s.slots caller⟩ step with
    | none =>
      have hunpooled : (slots caller).step otherGrowth step = none := by
        simpa [hpooled] using hstep.symm
      simp [Shared.trace, unpooledTrace, Shared.step, hpooled, hunpooled]
    | some result =>
      obtain ⟨t, shown⟩ := result
      obtain ⟨given, hunpooled, hgiven⟩ :
          ∃ given, (slots caller).step otherGrowth step = some given ∧
            given.texts = Slots.texts t.slots := by
        simpa [hpooled] using hstep.symm
      have hupdate := texts_update h hgiven.symm caller
      simp only [Shared.trace, unpooledTrace, Shared.step, hpooled, hunpooled, Option.map_some]
      rw [ih ⟨t.pool, Function.update s.slots caller t.slots⟩ hupdate]
      congr 1
      funext c
      exact hupdate c

/-- **Pooling is unobservable.** Whatever steps any number of callers take on a shared pool, in
whatever order, the texts in their slots after every step are the same for all limits of the pool
(and whatever it has kept before), and they are the texts that the same steps leave without a pool.
The buffers may grow in one way in the one run and in another in the other. -/
theorem pooling_unobservable (steps : List (Caller × Step)) :
    (∀ p q : Pool,
      (Shared.start p).trace growth steps = (Shared.start q).trace otherGrowth steps) ∧
      ∀ p : Pool,
        (Shared.start p).trace growth steps = unpooledTrace otherGrowth (fun _ => []) steps := by
  have hunpooled : ∀ (growth : Growth) (p : Pool),
      (Shared.start p).trace growth steps = unpooledTrace otherGrowth (fun _ => []) steps :=
    fun growth p => trace_eq growth otherGrowth (Shared.start p) (fun _ => rfl) steps
  exact ⟨fun p q => (hunpooled growth p).trans (hunpooled otherGrowth q).symm, hunpooled growth⟩

end Stencil.Buffer
