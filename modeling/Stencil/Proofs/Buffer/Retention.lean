/-
What a pool has in stock. A pool answers one call at a time, so the calls of all its callers are one
sequence, whoever makes them; a buffer may be released with any text and any room.

An `Account` is a pool with a record of its calls. Each buffer that the pool has kept is a deposit,
told from all others by the number of the call that released it, and a deposit is withdrawn when its
buffer is handed out again. What the pool has in stock are the deposits that were not withdrawn, the
latest in front (`Account.Sound`), so that no buffer is in stock and with a caller, or with two
callers. One call keeps this (`Sound.call`), and so do all calls of a run (`sound_after`).
-/
import Mathlib.Data.Multiset.AddSub
import Stencil.Buffer.Pool

namespace Stencil.Buffer

/-- A call of a pool. -/
inductive Call where
  | acquire
  | release (b : Buffer)

/-- A buffer that a pool has kept, as it was released. -/
structure Deposit where
  /-- The number of the call that released it. -/
  number : Nat
  buffer : Buffer
  deriving DecidableEq

/-- A pool with a record of its calls. -/
structure Account where
  pool : Pool
  /-- The calls so far, in their order. -/
  calls : List Call := []
  /-- All buffers that were kept, the latest in front. -/
  deposits : List Deposit := []
  /-- The deposits whose buffers were handed out again. -/
  withdrawals : List Deposit := []

namespace Account

/-- The deposits that were not withdrawn, the latest in front. -/
def stock (a : Account) : List Deposit := a.deposits.filter (· ∉ a.withdrawals)

/-- The pool answers a call. A release is a deposit if the pool keeps the buffer, and an `acquire`
withdraws the latest deposit in stock. -/
def call (a : Account) (c : Call) : Account :=
  match c with
  | .acquire =>
    { a with
      pool := a.pool.acquire.2
      calls := a.calls ++ [c]
      withdrawals := a.stock.head?.toList ++ a.withdrawals }
  | .release b =>
    { a with
      pool := a.pool.release b
      calls := a.calls ++ [c]
      deposits := if a.pool.keeps b then ⟨a.calls.length, b⟩ :: a.deposits else a.deposits }

/-- A pool without buffers. -/
def start (maxRetained maxCapacity : Nat) : Account := { pool := { maxRetained, maxCapacity } }

/-- An empty pool after a sequence of calls. -/
def after (maxRetained maxCapacity : Nat) (calls : List Call) : Account :=
  calls.foldl call (start maxRetained maxCapacity)

/-- The pool is within its limits, and has in stock what was deposited and not withdrawn. -/
structure Sound (maxRetained maxCapacity : Nat) (a : Account) : Prop where
  maxRetained_eq : a.pool.maxRetained = maxRetained
  maxCapacity_eq : a.pool.maxCapacity = maxCapacity
  retained_le : a.pool.retained ≤ maxRetained
  room : ∀ b ∈ a.pool.buffers, 1 ≤ b.capacity ∧ b.capacity ≤ maxCapacity
  buffers_eq : a.pool.buffers = a.stock.map (·.buffer)
  released : ∀ d ∈ a.deposits, a.calls[d.number]? = some (.release d.buffer)
  latest_first : a.deposits.Pairwise fun d e => e.number < d.number
  balance : a.deposits.Perm (a.stock ++ a.withdrawals)

end Account

/-! ## One call -/

namespace Pool

theorem keeps_iff (p : Pool) (b : Buffer) : p.keeps b = true ↔
    1 ≤ b.capacity ∧ b.capacity ≤ p.maxCapacity ∧ p.retained < p.maxRetained := by
  simp only [keeps, retained, Bool.and_eq_true, decide_eq_true_eq, and_assoc]
  exact Iff.rfl

theorem release_of_keeps {p : Pool} {b : Buffer} (h : p.keeps b = true) :
    p.release b = { p with buffers := b :: p.buffers } := by
  rw [release, if_pos h]

theorem release_of_not_keeps {p : Pool} {b : Buffer} (h : ¬ p.keeps b = true) :
    p.release b = p := by
  rw [release, if_neg h]

end Pool

namespace Account.Sound

variable {maxRetained maxCapacity : Nat} {a : Account}

theorem start (maxRetained maxCapacity : Nat) :
    Sound maxRetained maxCapacity (.start maxRetained maxCapacity) where
  maxRetained_eq := rfl
  maxCapacity_eq := rfl
  retained_le := Nat.zero_le _
  room := by simp [Account.start]
  buffers_eq := rfl
  released := by simp [Account.start]
  latest_first := .nil
  balance := .refl _

section

variable (h : a.Sound maxRetained maxCapacity)
include h

theorem nodup : a.deposits.Nodup := by
  refine h.latest_first.imp ?_
  rintro d _ hlt rfl
  exact Nat.lt_irrefl _ hlt

theorem number_lt {d : Deposit} (hd : d ∈ a.deposits) : d.number < a.calls.length :=
  (List.getElem?_eq_some_iff.mp (h.released d hd)).1

/-- A deposit keeps its number when further calls are made. -/
theorem released_append (c : Call) :
    ∀ d ∈ a.deposits, (a.calls ++ [c])[d.number]? = some (.release d.buffer) := by
  intro d hd
  rw [List.getElem?_append_left (h.number_lt hd)]
  exact h.released d hd

theorem buffers_of_cons {d : Deposit} {rest : List Deposit} (hstock : a.stock = d :: rest) :
    a.pool.buffers = d.buffer :: rest.map (·.buffer) := by
  rw [h.buffers_eq, hstock, List.map_cons]

theorem pool_acquire_of_nil (hstock : a.stock = []) : a.pool.acquire = ({}, a.pool) := by
  have hbuffers : a.pool.buffers = [] := by rw [h.buffers_eq, hstock, List.map_nil]
  rw [Pool.acquire, hbuffers]

/-- The pool hands out the latest deposit in stock. -/
theorem pool_acquire_of_cons {d : Deposit} {rest : List Deposit} (hstock : a.stock = d :: rest) :
    a.pool.acquire =
      ({ d.buffer with text := "" }, { a.pool with buffers := rest.map (·.buffer) }) := by
  rw [Pool.acquire, h.buffers_of_cons hstock]

/-- A withdrawal takes the latest deposit out of the stock. -/
theorem stock_withdraw {d : Deposit} {rest : List Deposit} (hstock : a.stock = d :: rest) :
    a.deposits.filter (· ∉ d :: a.withdrawals) = rest := by
  have hnodup : (d :: rest).Nodup := hstock ▸ h.nodup.filter _
  have hrest : ∀ e ∈ rest, e ≠ d := fun e he heq => (List.nodup_cons.mp hnodup).1 (heq ▸ he)
  calc a.deposits.filter (· ∉ d :: a.withdrawals)
      = a.stock.filter (· ≠ d) := by
        rw [stock, List.filter_filter]
        simp [not_or]
    _ = rest := by
        rw [hstock, List.filter_cons_of_neg (by simp), List.filter_eq_self]
        simpa using hrest

/-- A new deposit is in stock. -/
theorem stock_deposit (b : Buffer) :
    (⟨a.calls.length, b⟩ :: a.deposits).filter (· ∉ a.withdrawals) =
      ⟨a.calls.length, b⟩ :: a.stock := by
  -- What was withdrawn was deposited before, and has a smaller number.
  have hnew : (⟨a.calls.length, b⟩ : Deposit) ∉ a.withdrawals := fun hmem =>
    absurd (h.number_lt (h.balance.mem_iff.mpr (List.mem_append_right _ hmem))) (Nat.lt_irrefl _)
  rw [List.filter_cons_of_pos (by simpa using hnew), stock]

/-- A call that leaves pool and deposits alone is only recorded. -/
theorem record (c : Call) : Sound maxRetained maxCapacity { a with calls := a.calls ++ [c] } :=
  { h with released := h.released_append c }

theorem acquire : (a.call .acquire).Sound maxRetained maxCapacity := by
  cases hstock : a.stock with
  | nil =>
    have hcall : a.call .acquire = { a with calls := a.calls ++ [.acquire] } := by
      rw [Account.call, h.pool_acquire_of_nil hstock, hstock]
      rfl
    rw [hcall]
    exact h.record .acquire
  | cons d rest =>
    have hcall : a.call .acquire =
        ⟨{ a.pool with buffers := rest.map (·.buffer) }, a.calls ++ [.acquire], a.deposits,
          d :: a.withdrawals⟩ := by
      rw [Account.call, h.pool_acquire_of_cons hstock, hstock]
      rfl
    have hbuffers := h.buffers_of_cons hstock
    have hrest := h.stock_withdraw hstock
    rw [hcall]
    exact
      { h with
        retained_le := by
          have hle := h.retained_le
          rw [Pool.retained, hbuffers, List.length_cons] at hle
          exact Nat.le_of_succ_le hle
        room := fun b hb => h.room b (hbuffers ▸ List.mem_cons_of_mem _ hb)
        buffers_eq := by rw [stock, hrest]
        released := h.released_append _
        balance := by
          -- The deposit goes from the front of the stock to the front of the withdrawals.
          rw [stock, hrest]
          refine h.balance.trans ?_
          rw [hstock]
          exact List.perm_middle.symm }

theorem release (b : Buffer) : (a.call (.release b)).Sound maxRetained maxCapacity := by
  by_cases hkeeps : a.pool.keeps b = true
  · have hcall : a.call (.release b) =
        ⟨{ a.pool with buffers := b :: a.pool.buffers }, a.calls ++ [.release b],
          ⟨a.calls.length, b⟩ :: a.deposits, a.withdrawals⟩ := by
      rw [Account.call, Pool.release_of_keeps hkeeps, if_pos hkeeps]
    obtain ⟨hpos, hle, hroom⟩ := (Pool.keeps_iff a.pool b).mp hkeeps
    rw [h.maxCapacity_eq] at hle
    rw [h.maxRetained_eq] at hroom
    have hstock := h.stock_deposit b
    rw [hcall]
    exact
      { h with
        retained_le := hroom
        room := List.forall_mem_cons.mpr ⟨⟨hpos, hle⟩, h.room⟩
        buffers_eq := by rw [stock, hstock, List.map_cons, ← h.buffers_eq]
        released := List.forall_mem_cons.mpr ⟨List.getElem?_concat_length, h.released_append _⟩
        latest_first := List.pairwise_cons.mpr ⟨fun d hd => h.number_lt hd, h.latest_first⟩
        balance := by
          rw [stock, hstock]
          exact h.balance.cons _ }
  · have hcall : a.call (.release b) = { a with calls := a.calls ++ [.release b] } := by
      rw [Account.call, Pool.release_of_not_keeps hkeeps, if_neg hkeeps]
    rw [hcall]
    exact h.record (.release b)

theorem call (c : Call) : (a.call c).Sound maxRetained maxCapacity := by
  cases c with
  | acquire => exact h.acquire
  | release b => exact h.release b

/-! ## What the pool has and does -/

/-- The buffers of the pool are those of all deposits less those of the withdrawals. -/
theorem multiset_eq : (a.pool.buffers : Multiset Buffer) =
    ↑(a.deposits.map (·.buffer)) - ↑(a.withdrawals.map (·.buffer)) := by
  have hbalance := Multiset.coe_eq_coe.mpr (h.balance.map (·.buffer))
  rw [List.map_append, ← Multiset.coe_add] at hbalance
  rw [h.buffers_eq, hbalance, Multiset.add_sub_cancel_right]

theorem retained_eq : a.pool.retained = a.stock.length := by
  rw [Pool.retained, h.buffers_eq, List.length_map]

/-- A pool with buffers hands out the one that was kept last, without its text. -/
theorem acquire_latest (hpos : 0 < a.pool.retained) :
    ∃ d, a.stock.head? = some d ∧ (∀ e ∈ a.stock, e.number ≤ d.number) ∧
      a.pool.acquire = ({ text := "", capacity := d.buffer.capacity },
        { a.pool with buffers := a.pool.buffers.tail }) ∧
      a.pool.acquire.2.retained + 1 = a.pool.retained := by
  rw [h.retained_eq] at hpos
  obtain ⟨d, rest, hstock⟩ := List.exists_cons_of_length_pos hpos
  have hacquire := h.pool_acquire_of_cons hstock
  have hlatest : (d :: rest).Pairwise fun d e => e.number < d.number :=
    hstock ▸ h.latest_first.filter _
  refine ⟨d, by rw [hstock, List.head?_cons], ?_, ?_, ?_⟩
  · rw [hstock, List.forall_mem_cons]
    exact ⟨Nat.le_refl _, fun e he => Nat.le_of_lt ((List.pairwise_cons.mp hlatest).1 e he)⟩
  · rw [hacquire, h.buffers_of_cons hstock, List.tail_cons]
  · rw [hacquire, Pool.retained, Pool.retained, h.buffers_of_cons hstock, List.length_cons]

theorem pool_release_eq (b : Buffer) :
    a.pool.release b =
      if 1 ≤ b.capacity ∧ b.capacity ≤ maxCapacity ∧ a.pool.retained < maxRetained then
        { a.pool with buffers := b :: a.pool.buffers }
      else a.pool := by
  have hkeeps := Pool.keeps_iff a.pool b
  rw [h.maxRetained_eq, h.maxCapacity_eq] at hkeeps
  split
  · next hroom => exact Pool.release_of_keeps (hkeeps.mpr hroom)
  · next hfull => exact Pool.release_of_not_keeps (mt hkeeps.mp hfull)

end

end Account.Sound

/-! ## Runs -/

namespace Account

variable {maxRetained maxCapacity : Nat}

theorem sound_foldl {a : Account} (h : a.Sound maxRetained maxCapacity) (calls : List Call) :
    (calls.foldl call a).Sound maxRetained maxCapacity := by
  induction calls generalizing a with
  | nil => exact h
  | cons c calls ih => exact ih (h.call c)

theorem sound_after (maxRetained maxCapacity : Nat) (calls : List Call) :
    (after maxRetained maxCapacity calls).Sound maxRetained maxCapacity :=
  sound_foldl (.start maxRetained maxCapacity) calls

theorem calls_foldl (a : Account) (calls : List Call) :
    (calls.foldl call a).calls = a.calls ++ calls := by
  induction calls generalizing a with
  | nil => simp
  | cons c calls ih =>
    have hcall : (a.call c).calls = a.calls ++ [c] := by cases c <;> rfl
    rw [List.foldl_cons, ih, hcall, List.append_assoc, List.singleton_append]

end Account

/-- **What a pool does after any calls.** The pool is within its limits. It hands out the buffer
kept last among those it has, emptied and with the room that it had, or a new one if it has none. It
keeps a buffer exactly if that has room within the limit and the pool has place for it, and is
otherwise unchanged. Its buffers are those it has kept and not handed out again, each kept by one
release and handed out at most once. -/
theorem pool_retention (maxRetained maxCapacity : Nat) (calls : List Call) :
    let a := Account.after maxRetained maxCapacity calls
    let p := a.pool
    p.retained ≤ maxRetained ∧
      (∀ b ∈ p.buffers, 1 ≤ b.capacity ∧ b.capacity ≤ maxCapacity) ∧
      (p.retained = 0 → p.acquire = ({ text := "", capacity := 0 }, p)) ∧
      (0 < p.retained → ∃ d, a.stock.head? = some d ∧ (∀ e ∈ a.stock, e.number ≤ d.number) ∧
        p.acquire = ({ text := "", capacity := d.buffer.capacity },
          { p with buffers := p.buffers.tail }) ∧
        p.acquire.2.retained + 1 = p.retained) ∧
      (∀ b, p.release b =
          (if 1 ≤ b.capacity ∧ b.capacity ≤ maxCapacity ∧ p.retained < maxRetained then
            { p with buffers := b :: p.buffers }
          else p) ∧
        ((p.release b).retained = p.retained + 1 ↔
          1 ≤ b.capacity ∧ b.capacity ≤ maxCapacity ∧ p.retained < maxRetained)) ∧
      p.buffers = a.stock.map (·.buffer) ∧
      a.deposits.Perm (a.stock ++ a.withdrawals) ∧ (a.stock ++ a.withdrawals).Nodup ∧
      (∀ d ∈ a.deposits, calls[d.number]? = some (.release d.buffer)) ∧
      (p.buffers : Multiset Buffer) =
        ↑(a.deposits.map (·.buffer)) - ↑(a.withdrawals.map (·.buffer)) := by
  intro a p
  have h : a.Sound maxRetained maxCapacity := Account.sound_after maxRetained maxCapacity calls
  have hcalls : a.calls = calls := Account.calls_foldl (.start maxRetained maxCapacity) calls
  refine ⟨h.retained_le, h.room, fun hempty => ?_, h.acquire_latest,
    fun b => ⟨h.pool_release_eq b, ?_⟩, h.buffers_eq, h.balance, h.balance.nodup_iff.mp h.nodup,
    hcalls ▸ h.released, h.multiset_eq⟩
  · rw [h.retained_eq, List.length_eq_zero_iff] at hempty
    exact h.pool_acquire_of_nil hempty
  · rw [h.pool_release_eq b]
    split
    · next hroom => exact iff_of_true rfl hroom
    · next hfull => exact iff_of_false (Nat.ne_of_lt (Nat.lt_succ_self _)) hfull

end Stencil.Buffer
