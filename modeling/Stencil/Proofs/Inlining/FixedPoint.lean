/-
Inlining runs to its end. A name is spent when a component of that name is constant and no body
calls it without arguments. A round spends every name that is constant when it starts, and
replaces nothing unless some constant name is not spent yet; so each round but the last spends
a new one, and there are no more names than components. Hence one round more than there are
components leaves no call to replace (`settled_inlineCalls`), whatever the components call each
other and however many share a name.

With the normal form of coalesced bodies this makes the optimizer idempotent.
-/
import Mathlib.Data.Finset.Card
import Stencil.Proofs.Inlining.Rounds
import Stencil.Proofs.Instruction.Calls
import Stencil.Proofs.Instruction.Normal

namespace Stencil.Inlining

open Instructions

/-! ## Constant names -/

/-- The names of the constant components. -/
def constantNames (components : List Component) : Finset String :=
  ((tableOf components).map (·.1)).toFinset

theorem mem_constantNames {components : List Component} {name : String} :
    name ∈ constantNames components ↔
      ∃ c ∈ components, c.signature.name = name ∧ c.constantText?.isSome := by
  simp only [constantNames, List.mem_toFinset, List.mem_map]
  constructor
  · rintro ⟨⟨name, text⟩, h, rfl⟩
    obtain ⟨c, hc, hname, htext⟩ := mem_tableOf h
    exact ⟨c, hc, hname, by simp [htext]⟩
  · rintro ⟨c, hc, rfl, htext⟩
    obtain ⟨text, htext⟩ := Option.isSome_iff_exists.mp htext
    refine ⟨(c.signature.name, text), ?_, rfl⟩
    rw [tableOf, List.mem_filterMap]
    exact ⟨c, hc, by simp [htext]⟩

theorem card_constantNames_le (components : List Component) :
    (constantNames components).card ≤ components.length := by
  calc (constantNames components).card ≤ ((tableOf components).map (·.1)).length :=
        List.toFinset_card_le _
    _ ≤ components.length := by
        rw [List.length_map]
        exact List.length_filterMap_le _ _

/-- A call is replaced when it has no arguments and the name of a constant component. -/
theorem callText?_tableOf_isSome {components : List Component} {name args : String} :
    ((tableOf components).callText? name args).isSome ↔
      Text.allBlank args.toList = true ∧ name ∈ constantNames components := by
  unfold Table.callText? Table.text?
  by_cases hargs : Text.allBlank args.toList = true
  · simp only [hargs, if_true, true_and, List.lookup_isSome_iff, constantNames, List.mem_toFinset,
      List.mem_map, List.mem_reverse, beq_iff_eq]
    constructor
    · rintro ⟨p, hp, rfl⟩
      exact ⟨p, hp, rfl⟩
    · rintro ⟨p, hp, rfl⟩
      exact ⟨p, hp, rfl⟩
  · simp [hargs]

/-! ## One round -/

/-- No body calls one of these names without arguments. -/
def Spent (names : Finset String) (components : List Component) : Prop :=
  ∀ c ∈ components, ∀ name args, (name, args) ∈ c.body.calls →
    Text.allBlank args.toList = true → name ∉ names

theorem totalSites_eq_zero_iff {table : Table} {components : List Component} :
    totalSites table components = 0 ↔ ∀ c ∈ components, sites table c.body = 0 := by
  induction components with
  | nil => simp [totalSites]
  | cons c components ih =>
    rw [totalSites, List.foldr_cons, Nat.add_eq_zero_iff, List.forall_mem_cons]
    exact and_congr_right fun _ => ih

theorem totalSites_eq_zero_iff_spent {components : List Component} :
    totalSites (tableOf components) components = 0 ↔
      Spent (constantNames components) components := by
  simp only [totalSites_eq_zero_iff, sites_eq_zero_iff, Spent]
  refine forall₂_congr fun c _ => forall₂_congr fun name args => ?_
  refine imp_congr_right fun _ => ?_
  rw [← Option.not_isSome_iff_eq_none, callText?_tableOf_isSome, not_and]

/-- A round spends the names that are constant when it starts. -/
theorem spent_round (components : List Component) :
    Spent (constantNames components) (round components) := by
  intro d hd name args hcall hargs hname
  obtain ⟨c, -, rfl⟩ := List.mem_map.mp hd
  have hsome : ((tableOf components).callText? name args).isSome :=
    callText?_tableOf_isSome.mpr ⟨hargs, hname⟩
  rcases inlineOnce_body (tableOf components) c with ⟨hsites, hb⟩ | hb
  · rw [hb] at hcall
    rw [sites_eq_zero_iff.mp hsites name args hcall] at hsome
    cases hsome
  · rw [hb, calls_coalesce, calls_replace, List.mem_filter] at hcall
    rw [← Option.not_isNone, hcall.2] at hsome
    cases hsome

/-- A constant component is left as it is. -/
theorem inlineOnce_of_constant (table : Table) {c : Component} {text : String}
    (h : c.constantText? = some text) : inlineOnce table c = c := by
  have hsites : sites table c.body = 0 := by
    rcases (constantText?_eq_some h).2 with ⟨hb, -⟩ | hb <;> simp [hb, sites, sitesOne]
  unfold inlineOnce
  rw [if_pos hsites]

theorem constantNames_subset_round (components : List Component) :
    constantNames components ⊆ constantNames (round components) := by
  intro name hname
  obtain ⟨c, hc, rfl, hconst⟩ := mem_constantNames.mp hname
  obtain ⟨text, htext⟩ := Option.isSome_iff_exists.mp hconst
  refine mem_constantNames.mpr ⟨c, List.mem_map.mpr ⟨c, hc, ?_⟩, rfl, hconst⟩
  exact inlineOnce_of_constant _ htext

@[simp] theorem length_round (components : List Component) :
    (round components).length = components.length := List.length_map _

/-! ## A run -/

/-- Components in which a round replaces nothing. -/
def Settled (components : List Component) : Prop :=
  Spent (constantNames components) components

theorem rounds_of_settled {components : List Component} (h : Settled components) (n : Nat) :
    rounds n components = (components, 0) := by
  cases n with
  | zero => rfl
  | succ n => rw [rounds_succ, if_pos (totalSites_eq_zero_iff_spent.mpr h)]

/-- A run settles when it has more rounds than there are components left to spend. The induction
carries the set of names spent so far, which a productive round makes strictly larger. -/
theorem settled_rounds {n : Nat} {components : List Component} {spent : Finset String}
    (hsub : spent ⊆ constantNames components) (hspent : Spent spent components)
    (hn : components.length < n + spent.card) : Settled (rounds n components).1 := by
  induction n generalizing components spent with
  | zero =>
    have h1 := Finset.card_le_card hsub
    have h2 := card_constantNames_le components
    omega
  | succ n ih =>
    rw [rounds_succ]
    split
    · next hsites => exact totalSites_eq_zero_iff_spent.mp hsites
    · next hsites =>
      have hlt : spent.card < (constantNames components).card := by
        refine Finset.card_lt_card (hsub.ssubset_of_ne fun heq => hsites ?_)
        exact totalSites_eq_zero_iff_spent.mpr (heq ▸ hspent)
      refine ih (constantNames_subset_round components) (spent_round components) ?_
      rw [length_round]
      omega

/-- **After a run no call of a constant component is left.** -/
theorem settled_inlineCalls (components : List Component) :
    Settled (inlineCalls components).1 := by
  refine settled_rounds (Finset.empty_subset _) (fun _ _ _ _ _ _ => Finset.notMem_empty _) ?_
  simp

/-- Rounds after the components have settled change nothing. -/
theorem rounds_add_of_settled {n : Nat} {components : List Component}
    (h : Settled (rounds n components).1) (k : Nat) :
    rounds (n + k) components = rounds n components := by
  induction n generalizing components with
  | zero =>
    rw [Nat.zero_add]
    exact rounds_of_settled h k
  | succ n ih =>
    rw [Nat.add_right_comm, rounds_succ, rounds_succ]
    split
    · rfl
    · next hsites =>
      rw [rounds_succ, if_neg hsites] at h
      rw [ih h]

/-! ## The optimizer -/

theorem normal_inlineOnce (table : Table) {c : Component} (h : c.body.Normal) :
    (inlineOnce table c).body.Normal := by
  rcases inlineOnce_body table c with ⟨-, hb⟩ | hb
  · rw [hb]
    exact h
  · rw [hb]
    exact normal_coalesce _

theorem normal_optimize (options : Options) (components : List Component) :
    ∀ c ∈ optimize options components, c.body.Normal :=
  forall_optimize (fun c _ => normal_coalesce c.body) fun table _ h => normal_inlineOnce table h

theorem map_coalesce_of_normal {components : List Component}
    (h : ∀ c ∈ components, c.body.Normal) :
    (components.map fun c => { c with body := c.body.coalesce }) = components := by
  conv => rhs; rw [← List.map_id components]
  refine List.map_congr_left fun c hc => ?_
  rw [coalesce_of_normal c.body (h c hc)]
  rfl

theorem optimize_of_normal (options : Options) {components : List Component}
    (h : ∀ c ∈ components, c.body.Normal) :
    optimize options components =
      if options.inlineTrivial then (inlineCalls components).1 else components := by
  unfold optimize
  dsimp only
  rw [map_coalesce_of_normal h]

theorem settled_optimize {options : Options} (h : options.inlineTrivial = true)
    (components : List Component) : Settled (optimize options components) := by
  unfold optimize
  rw [if_pos h]
  exact settled_inlineCalls _

theorem optimize_optimize (options : Options) (components : List Component) :
    optimize options (optimize options components) = optimize options components := by
  rw [optimize_of_normal options (normal_optimize options components)]
  split
  · next h => rw [inlineCalls, rounds_of_settled (settled_optimize h components)]
  · rfl

/-- No call that inlining leaves goes to a component that is constant in the end. -/
theorem not_constant_of_call {components : List Component} (h : Settled components)
    {c d : Component} (hc : c ∈ components) (hd : d ∈ components) {args : String}
    (hcall : .call d.signature.name args ∈ c.body.walk) (hargs : Text.allBlank args.toList = true)
    (hp : d.signature.isParameterless = true) :
    ¬ (d.body = [] ∨ ∃ text, d.body = [.literal text]) := by
  intro hb
  refine h c hc d.signature.name args (mem_calls.mpr hcall) hargs ?_
  exact mem_constantNames.mpr ⟨d, hd, rfl, constantText?_isSome hp hb⟩

/-- **Inlining reaches a fixed point, and the optimizer is idempotent.** After inlining no body
calls, without arguments and at any depth, a component that takes no parameters and writes one
text or nothing; so a second run replaces nothing, and no number of rounds beyond the bound would
change the result. Optimized bodies are normal and optimizing them again changes nothing. -/
theorem optimizer_fixed_point (components : List Component) :
    (∀ c ∈ (inlineCalls components).1, ∀ d ∈ (inlineCalls components).1, ∀ args : String,
      .call d.signature.name args ∈ c.body.walk → Text.allBlank args.toList = true →
        d.signature.isParameterless = true →
          ¬ (d.body = [] ∨ ∃ text, d.body = [.literal text])) ∧
    inlineCalls (inlineCalls components).1 = ((inlineCalls components).1, 0) ∧
    (∀ n, components.length + 1 ≤ n → rounds n components = inlineCalls components) ∧
    ∀ options : Options,
      optimize options (optimize options components) = optimize options components ∧
        ∀ c ∈ optimize options components, c.body.Normal := by
  have hsettled := settled_inlineCalls components
  refine ⟨fun c hc d hd args => not_constant_of_call hsettled hc hd, ?_, fun n hn => ?_, ?_⟩
  · exact rounds_of_settled hsettled _
  · obtain ⟨k, rfl⟩ := Nat.exists_eq_add_of_le hn
    exact rounds_add_of_settled hsettled k
  · exact fun options => ⟨optimize_optimize options components, normal_optimize options components⟩

/-- A component that calls itself. -/
def loop : Component := ⟨⟨"Loop", []⟩, 7, [.call "Loop" ""]⟩

/-- A text that is called through another component, and a call that leads nowhere. -/
def relay : List Component :=
  [⟨⟨"Page", []⟩, 1, [.call "Head" " ", .call "Loop" ""]⟩,
    ⟨⟨"Head", []⟩, 3, [.literal "<b>", .call "Logo" "", .literal "</b>"]⟩,
    ⟨⟨"Logo", []⟩, 5, [.literal "x"]⟩, loop]

/-- What is left of `relay` after two rounds. -/
def relayed : List Component :=
  [⟨⟨"Page", []⟩, 1, [.literal "<b>x</b>", .call "Loop" ""]⟩,
    ⟨⟨"Head", []⟩, 3, [.literal "<b>x</b>"]⟩,
    ⟨⟨"Logo", []⟩, 5, [.literal "x"]⟩, loop]

theorem optimizer_fixed_point_relay :
    inlineCalls relay = (relayed, 2) ∧ inlineCalls relayed = (relayed, 0) ∧
      .call "Loop" "" ∈ loop.body.walk ∧
      ¬ (loop.body = [] ∨ ∃ text, loop.body = [.literal text]) ∧
      optimize {} relayed = relayed := by
  have hrun : inlineCalls relay = (relayed, 2) := rfl
  have hoptimize : optimize {} relay = relayed := rfl
  have hloop : loop ∈ relayed := by simp [relayed]
  have hcall : .call "Loop" "" ∈ loop.body.walk := List.mem_singleton_self _
  obtain ⟨hcalls, hagain, -, hidempotent⟩ := optimizer_fixed_point relay
  rw [hrun] at hcalls hagain
  have htwice := (hidempotent {}).1
  rw [hoptimize] at htwice
  exact ⟨hrun, hagain, hcall, hcalls loop hloop loop hloop "" hcall rfl rfl, htwice⟩

end Stencil.Inlining
