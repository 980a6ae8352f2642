/-
The clashes of a bundle. Owners are written down routine by routine, in a table that holds the
routines in no particular order (`Tabulates`). What is reported is the same for every order of the
table: the routines with more than one owner, sorted, and of those with the same owners the smallest
(`find_reports`). Nothing is reported exactly when no routine is emitted twice.
-/
import Mathlib.Data.List.Nodup
import Stencil.Cli.Clash
import Stencil.Proofs.Dialect.RoutineNames
import Stencil.Proofs.Lists

namespace Stencil.Cli.Clash

open Text

/-! ## Owners -/

/-- Every component with its file, in the order of files and components. -/
def members (files : List FileResult) : List Owner :=
  files.flatMap fun f => f.output.components.map fun c => (c.name, f.path)

/-- The components that emit a routine. -/
def emitters (d : Dialect) (files : List FileResult) (routine : String) : List Owner :=
  (members files).filter fun owner => (routinesOf d owner.1).contains routine

theorem emissions_eq (d : Dialect) (files : List FileResult) :
    emissions d files =
      (members files).flatMap fun owner => (routinesOf d owner.1).map fun r => (r, owner) := by
  simp [emissions, members, List.flatMap_assoc, List.flatMap_map]

/-- No component emits a routine twice. -/
theorem nodup_routinesOf (options : Options) (name : String) :
    (routinesOf options.dialect name).Nodup := by
  unfold routinesOf
  split
  · next b s hnames =>
    have hne : b ≠ s := by
      unfold Options.dialect at hnames
      cases htarget : options.target with
      | go =>
        rw [htarget] at hnames
        exact Dialect.Go.ne_of_routineNames hnames
      | rust =>
        rw [htarget] at hnames
        exact Dialect.Rust.ne_of_routineNames hnames
    exact List.Nodup.filter _ (by simpa using hne)
  · exact List.Nodup.filter _ (List.nodup_singleton name)

theorem ownersOf_append (emitted more : List (String × Owner)) (routine : String) :
    ownersOf (emitted ++ more) routine = ownersOf emitted routine ++ ownersOf more routine := by
  simp [ownersOf]

theorem ownersOf_map (routines : List String) (hnodup : routines.Nodup) (owner : Owner)
    (routine : String) :
    ownersOf (routines.map fun r => (r, owner)) routine =
      if routines.contains routine then [owner] else [] := by
  have hfilter : routines.filter (· == routine) =
      List.replicate (if routine ∈ routines then 1 else 0) routine := by
    rw [List.filter_beq, hnodup.count]
  rw [ownersOf, List.filter_map, List.map_map]
  simp only [Function.comp_def, hfilter, List.contains_iff_mem]
  split <;> rfl

theorem ownersOf_emissions (options : Options) (files : List FileResult) (routine : String) :
    ownersOf (emissions options.dialect files) routine =
      emitters options.dialect files routine := by
  rw [emissions_eq, emitters]
  induction members files with
  | nil => rfl
  | cons owner owners ih =>
    rw [List.flatMap_cons, ownersOf_append, ih, ownersOf_map _ (nodup_routinesOf options owner.1),
      List.filter_cons]
    split <;> rfl

theorem contains_iff_mem_emitters {d : Dialect} {files : List FileResult} {owner : Owner}
    (h : owner ∈ members files) (routine : String) :
    (routinesOf d owner.1).contains routine = true ↔
      owner.1 ∈ (emitters d files routine).map (·.1) := by
  constructor
  · intro hcontains
    exact List.mem_map_of_mem (List.mem_filter.mpr ⟨h, hcontains⟩)
  · intro hmem
    obtain ⟨other, hother, hname⟩ := List.mem_map.mp hmem
    rw [← hname]
    exact (List.mem_filter.mp hother).2

/-- The names of the owners tell their files too: a component emits the same in all files. -/
theorem emitters_eq_of_map_eq {d : Dialect} {files : List FileResult} {r r' : String}
    (h : (emitters d files r).map (·.1) = (emitters d files r').map (·.1)) :
    emitters d files r = emitters d files r' := by
  refine List.filter_congr fun owner howner => ?_
  rw [Bool.eq_iff_iff, contains_iff_mem_emitters howner, contains_iff_mem_emitters howner, h]

/-! ## Tables of owners -/

/-- A table that holds every routine that is emitted once, with all its owners. -/
structure Tabulates (table : List Clash) (emitted : List (String × Owner)) : Prop where
  nodup : (table.map (·.routine)).Nodup
  mem_iff : ∀ c, c ∈ table ↔ c.owners = ownersOf emitted c.routine ∧ c.owners ≠ []

/-- Writes an owner down behind those that a routine has. -/
def record (table : List Clash) (entry : String × Owner) : List Clash :=
  if entry.1 ∈ table.map (·.routine) then
    table.map fun c => if c.routine = entry.1 then ⟨c.routine, c.owners ++ [entry.2]⟩ else c
  else
    table ++ [⟨entry.1, [entry.2]⟩]

theorem ownersOf_concat (emitted : List (String × Owner)) (entry : String × Owner)
    (routine : String) :
    ownersOf (emitted ++ [entry]) routine =
      if routine = entry.1 then ownersOf emitted routine ++ [entry.2]
      else ownersOf emitted routine := by
  rw [ownersOf_append]
  by_cases h : routine = entry.1
  · simp [ownersOf, h]
  · simp [ownersOf, h, Ne.symm h]

theorem map_record (table : List Clash) (entry : String × Owner) :
    (record table entry).map (·.routine) =
      if entry.1 ∈ table.map (·.routine) then table.map (·.routine)
      else table.map (·.routine) ++ [entry.1] := by
  unfold record
  split
  · rw [List.map_map]
    refine List.map_congr_left fun c _ => ?_
    simp only [Function.comp_apply]
    split <;> rfl
  · simp

theorem mem_record_of_ne {table : List Clash} {entry : String × Owner} {c : Clash}
    (h : c.routine ≠ entry.1) : c ∈ record table entry ↔ c ∈ table := by
  unfold record
  split
  · rw [List.mem_map]
    constructor
    · rintro ⟨old, hold, rfl⟩
      split at h
      · next heq => exact absurd heq h
      · next hne => rwa [if_neg hne]
    · exact fun hc => ⟨c, hc, if_neg h⟩
  · rw [List.mem_append, List.mem_singleton, or_iff_left]
    rintro rfl
    exact h rfl

namespace Tabulates

variable {table table' : List Clash} {emitted : List (String × Owner)}

theorem mem_routines (h : Tabulates table emitted) (routine : String) :
    routine ∈ table.map (·.routine) ↔ ownersOf emitted routine ≠ [] := by
  constructor
  · intro hmem
    obtain ⟨c, hc, rfl⟩ := List.mem_map.mp hmem
    obtain ⟨howners, hne⟩ := (h.mem_iff c).mp hc
    rwa [← howners]
  · intro hne
    exact List.mem_map.mpr ⟨⟨routine, ownersOf emitted routine⟩, (h.mem_iff _).mpr ⟨rfl, hne⟩, rfl⟩

theorem nil : Tabulates [] [] where
  nodup := List.nodup_nil
  mem_iff c := by simp [ownersOf]

/-- The routine of an entry has the owner behind those before. -/
theorem mem_record (h : Tabulates table emitted) {entry : String × Owner} {c : Clash}
    (hroutine : c.routine = entry.1) :
    c ∈ Clash.record table entry ↔ c.owners = ownersOf emitted entry.1 ++ [entry.2] := by
  obtain ⟨routine, owners⟩ := c
  subst hroutine
  unfold Clash.record
  split
  · next hmem =>
    obtain ⟨old, hold, hroutine⟩ := List.mem_map.mp hmem
    have howners : ∀ c ∈ table, c.routine = entry.1 → c.owners = ownersOf emitted entry.1 :=
      fun c hc heq => heq ▸ ((h.mem_iff c).mp hc).1
    rw [List.mem_map]
    constructor
    · rintro ⟨c, hc, heq⟩
      split at heq
      · next hsame => rw [← heq, howners c hc hsame]
      · next hne => exact absurd (congrArg Clash.routine heq) hne
    · rintro rfl
      exact ⟨old, hold, by rw [if_pos hroutine, hroutine, howners old hold hroutine]⟩
  · next hmem =>
    have hnone : ownersOf emitted entry.1 = [] := by
      rwa [h.mem_routines, not_not] at hmem
    have hnew : (⟨entry.1, owners⟩ : Clash) ∉ table :=
      fun hc => hmem (List.mem_map.mpr ⟨_, hc, rfl⟩)
    simp [hnone, hnew]

theorem record (h : Tabulates table emitted) (entry : String × Owner) :
    Tabulates (record table entry) (emitted ++ [entry]) where
  nodup := by
    rw [map_record]
    split
    · exact h.nodup
    · next hmem =>
      rw [← List.concat_eq_append]
      exact h.nodup.concat hmem
  mem_iff c := by
    rw [ownersOf_concat]
    split
    · next heq =>
      rw [h.mem_record heq, heq]
      exact (and_iff_left_of_imp fun howners => by simp [howners]).symm
    · next hne =>
      rw [mem_record_of_ne hne]
      exact h.mem_iff c

/-- What is written down entry by entry is a table of all entries. -/
theorem foldl_record {seen : List (String × Owner)} (h : Tabulates table seen)
    (emitted : List (String × Owner)) :
    Tabulates (emitted.foldl Clash.record table) (seen ++ emitted) := by
  induction emitted generalizing table seen with
  | nil => simpa using h
  | cons entry emitted ih => simpa using ih (h.record entry)

/-- Tables of the same entries differ in the order of the routines at most. -/
theorem perm (h : Tabulates table emitted) (h' : Tabulates table' emitted) : table.Perm table' := by
  rw [List.perm_ext_iff_of_nodup h.nodup.of_map h'.nodup.of_map]
  exact fun c => (h.mem_iff c).trans (h'.mem_iff c).symm

theorem of_perm (h : Tabulates table emitted) (hperm : table'.Perm table) :
    Tabulates table' emitted where
  nodup := (hperm.map (·.routine)).nodup_iff.mpr h.nodup
  mem_iff c := hperm.mem_iff.trans (h.mem_iff c)

end Tabulates

/-- The table of all routines, sorted. -/
def sortedTable (emitted : List (String × Owner)) : List Clash :=
  ((emitted.map (·.1)).eraseDups.mergeSort fun a b => a ≤ b).map fun r => ⟨r, ownersOf emitted r⟩

theorem tabulates_sortedTable (emitted : List (String × Owner)) :
    Tabulates (sortedTable emitted) emitted where
  nodup := by
    rw [sortedTable, List.map_map, Function.comp_def, List.map_id',
      (List.mergeSort_perm _ _).nodup_iff]
    exact Lists.nodup_eraseDups _
  mem_iff c := by
    have hmem : c.routine ∈ emitted.map (·.1) ↔ ownersOf emitted c.routine ≠ [] := by
      simp [ownersOf]
    rw [sortedTable, List.mem_map]
    constructor
    · rintro ⟨routine, hroutine, rfl⟩
      rw [List.mem_mergeSort, List.mem_eraseDups] at hroutine
      exact ⟨rfl, hmem.mp hroutine⟩
    · rintro ⟨howners, hne⟩
      rw [howners, ← hmem] at hne
      refine ⟨c.routine, ?_, by rw [← howners]⟩
      rwa [List.mem_mergeSort, List.mem_eraseDups]

theorem pairwise_sortedTable (emitted : List (String × Owner)) :
    (sortedTable emitted).Pairwise fun a b => a.routine ≤ b.routine := by
  have hsorted : ((emitted.map (·.1)).eraseDups.mergeSort fun a b => a ≤ b).Pairwise
      fun a b => decide (a ≤ b) = true := by
    apply List.pairwise_mergeSort
    · intro a b c
      simpa only [decide_eq_true_eq] using String.le_trans
    · intro a b
      simpa only [Bool.or_eq_true, decide_eq_true_eq] using String.le_total a b
  rw [sortedTable, List.pairwise_map]
  simpa only [decide_eq_true_eq] using hsorted

/-- The clashes of a table. -/
def clashing (table : List Clash) : List Clash := table.filter fun c => 1 < c.owners.length

theorem find_eq (d : Dialect) (files : List FileResult) :
    find d files = onePerOwners (clashing (sortedTable (emissions d files))) :=
  rfl

theorem Tabulates.mem_clashing {table : List Clash} {emitted : List (String × Owner)}
    (h : Tabulates table emitted) (c : Clash) :
    c ∈ clashing table ↔ c.owners = ownersOf emitted c.routine ∧ 2 ≤ c.owners.length := by
  rw [clashing, List.mem_filter, h.mem_iff, decide_eq_true_eq, and_assoc]
  refine and_congr_right fun _ => and_iff_right_of_imp fun hlength hnil => ?_
  simp [hnil] at hlength

/-- However the clashes of a table are sorted by routine, they come in the same order. -/
theorem Tabulates.sorted_eq {table sorted : List Clash} {emitted : List (String × Owner)}
    (h : Tabulates table emitted) (hperm : sorted.Perm (clashing table))
    (hsorted : sorted.Pairwise fun a b => a.routine ≤ b.routine) :
    sorted = clashing (sortedTable emitted) := by
  have htable := tabulates_sortedTable emitted
  have hperm' : sorted.Perm (clashing (sortedTable emitted)) :=
    hperm.trans ((h.perm htable).filter _)
  refine List.Perm.eq_of_pairwise ?_ hsorted ((pairwise_sortedTable emitted).filter _) hperm'
  intro a b ha hb hab hba
  have hroutine := String.le_antisymm hab hba
  obtain ⟨haowners, -⟩ := (htable.mem_clashing a).mp (hperm'.mem_iff.mp ha)
  obtain ⟨hbowners, -⟩ := (htable.mem_clashing b).mp hb
  cases a
  cases b
  simp_all

/-! ## One clash for each list of owners -/

/-- The first clash of each list of owners, in the order of all clashes. -/
structure Thins (kept clashes : List Clash) : Prop where
  sublist : kept.Sublist clashes
  nodup : (kept.map (·.owners)).Nodup
  exists_le : ∀ c ∈ clashes, ∃ first ∈ kept, first.owners = c.owners ∧ first.routine ≤ c.routine

theorem thins_onePerOwners {clashes : List Clash}
    (h : clashes.Pairwise fun a b => a.routine ≤ b.routine) :
    Thins (onePerOwners clashes) clashes := by
  induction clashes with
  | nil => exact ⟨.slnil, List.nodup_nil, by simp⟩
  | cons c cs ih =>
    obtain ⟨hc, hcs⟩ := List.pairwise_cons.mp h
    obtain ⟨hsublist, hnodup, hexists⟩ := ih hcs
    have hkept : ((onePerOwners cs).filter fun other => other.owners != c.owners).Sublist
        (onePerOwners cs) := List.filter_sublist
    rw [onePerOwners]
    refine ⟨(hkept.trans hsublist).cons_cons c, ?_, ?_⟩
    · rw [List.map_cons, List.nodup_cons]
      exact ⟨by simp, hnodup.sublist (hkept.map _)⟩
    · intro x hx
      rcases List.mem_cons.mp hx with rfl | hx
      · exact ⟨x, List.mem_cons_self, rfl, String.le_refl _⟩
      · obtain ⟨first, hfirst, howners, hle⟩ := hexists x hx
        by_cases heq : first.owners = c.owners
        · -- The head has these owners too and comes before all others.
          exact ⟨c, List.mem_cons_self, heq.symm.trans howners, hc x hx⟩
        · exact ⟨first, List.mem_cons_of_mem _ (by simp [hfirst, heq]), howners, hle⟩

/-- A report of routines that have several owners: sorted, each with all its owners, and of those
with the same owners exactly one, the smallest. -/
structure Report (reported : List Clash) (owners : String → List Owner) : Prop where
  increasing : reported.Pairwise fun a b => a.routine < b.routine
  sound : ∀ c ∈ reported, c.owners = owners c.routine ∧ 2 ≤ c.owners.length
  distinct : reported.Pairwise fun a b => a.owners ≠ b.owners
  complete : ∀ routine, 2 ≤ (owners routine).length → ∃ c ∈ reported,
    (∀ other ∈ reported, other.owners = owners routine ↔ other = c) ∧
      ∀ other, owners other = owners routine → c.routine ≤ other

theorem report_onePerOwners (emitted : List (String × Owner)) :
    Report (onePerOwners (clashing (sortedTable emitted))) (ownersOf emitted) := by
  have htable := tabulates_sortedTable emitted
  have hsorted := (pairwise_sortedTable emitted).filter fun c => 1 < c.owners.length
  obtain ⟨hsublist, hnodup, hexists⟩ := thins_onePerOwners hsorted
  have hfirst : ∀ routine, 2 ≤ (ownersOf emitted routine).length →
      ∃ first ∈ onePerOwners (clashing (sortedTable emitted)),
        first.owners = ownersOf emitted routine ∧ first.routine ≤ routine := by
    intro routine hlength
    exact hexists ⟨routine, _⟩ ((htable.mem_clashing _).mpr ⟨rfl, hlength⟩)
  refine ⟨?_, ?_, List.pairwise_map.mp hnodup, ?_⟩
  · have hroutines := List.pairwise_map.mp (htable.nodup.sublist
      ((hsublist.trans List.filter_sublist).map (·.routine)))
    refine ((hsorted.sublist hsublist).and hroutines).imp fun ⟨hle, hne⟩ => ?_
    exact Decidable.byContradiction fun hlt => hne (String.le_antisymm hle (String.not_lt.mp hlt))
  · exact fun c hc => (htable.mem_clashing c).mp (hsublist.subset hc)
  · intro routine hlength
    obtain ⟨c, hc, howners, -⟩ := hfirst routine hlength
    have hone : ∀ other ∈ onePerOwners (clashing (sortedTable emitted)),
        other.owners = ownersOf emitted routine → other = c := fun other hother heq =>
      List.inj_on_of_nodup_map hnodup hother hc (heq.trans howners.symm)
    refine ⟨c, hc, fun other hother => ⟨hone other hother, fun heq => heq ▸ howners⟩, ?_⟩
    intro other hother
    obtain ⟨first, hmem, hsame, hle⟩ := hfirst other (hother ▸ hlength)
    rwa [← hone first hmem (hsame.trans hother)]

/-! ## Bundles without clashes -/

theorem onePerOwners_eq_nil {clashes : List Clash} : onePerOwners clashes = [] ↔ clashes = [] := by
  cases clashes <;> simp [onePerOwners]

theorem length_ownersOf (emitted : List (String × Owner)) (routine : String) :
    (ownersOf emitted routine).length = (emitted.map (·.1)).count routine := by
  rw [ownersOf, List.length_map, List.count, List.countP_map, List.countP_eq_length_filter]
  rfl

/-- **No clash is found exactly when no routine is emitted twice.** -/
theorem find_eq_nil_iff (d : Dialect) (files : List FileResult) :
    find d files = [] ↔ ((emissions d files).map (·.1)).Nodup := by
  have hfind : find d files = [] ↔ ∀ routine ∈ (emissions d files).map (·.1),
      ((emissions d files).map (·.1)).count routine ≤ 1 := by
    simp only [find, onePerOwners_eq_nil, List.filter_eq_nil_iff, List.forall_mem_map,
      List.mem_mergeSort, List.mem_eraseDups, length_ownersOf, decide_eq_true_eq, Nat.not_lt]
  rw [hfind, List.nodup_iff_count]
  constructor
  · intro h routine
    by_cases hmem : routine ∈ (emissions d files).map (·.1)
    · exact h routine hmem
    · simp [List.count_eq_zero_of_not_mem hmem]
  · exact fun h routine _ => h routine

/-- **The search reports every group of clashing components once, whatever the order of the table.**
It is reported under the smallest routine with these owners, and the names of the components alone
tell the groups apart. -/
theorem find_reports (options : Options) (files : List FileResult) :
    Report (find options.dialect files) (emitters options.dialect files) ∧
      (∀ r r', (emitters options.dialect files r).map (·.1) =
          (emitters options.dialect files r').map (·.1) →
        emitters options.dialect files r = emitters options.dialect files r') ∧
      (find options.dialect files = [] ↔ ((emissions options.dialect files).map (·.1)).Nodup) ∧
      ∀ table sorted, table.Perm ((emissions options.dialect files).foldl record []) →
        sorted.Perm (clashing table) → sorted.Pairwise (fun a b => a.routine ≤ b.routine) →
          onePerOwners sorted = find options.dialect files := by
  have howners : ownersOf (emissions options.dialect files) = emitters options.dialect files :=
    funext (ownersOf_emissions options files)
  refine ⟨howners ▸ report_onePerOwners _, fun r r' => emitters_eq_of_map_eq,
    find_eq_nil_iff _ files, ?_⟩
  intro table sorted htable hsorted hordered
  have htabulated := (Tabulates.nil.foldl_record (emissions options.dialect files)).of_perm htable
  rw [find_eq, htabulated.sorted_eq hsorted hordered, List.nil_append]

/-- Components that clash on both routines, and one that is named as a streaming routine. -/
def cardFiles : List FileResult :=
  [⟨"a.sprig", compile {} "component UserCard\n\tp a\ncomponent stream_user_card\n\tp b\n"⟩,
    ⟨"b.sprig", compile {} "component User_Card\n\tp c\ncomponent Row\n\tp d\n"⟩,
    ⟨"c.sprig", compile {} "component Row\n\tp e\n"⟩]

/-- The routines of `Row` are reported once, those of the cards apart. -/
theorem find_reports_cards :
    find (Options.dialect {}) cardFiles =
      [⟨"row", [("Row", "b.sprig"), ("Row", "c.sprig")]⟩,
        ⟨"stream_user_card",
          [("UserCard", "a.sprig"), ("stream_user_card", "a.sprig"), ("User_Card", "b.sprig")]⟩,
        ⟨"user_card", [("UserCard", "a.sprig"), ("User_Card", "b.sprig")]⟩] := by
  have hmembers : members cardFiles =
      [("UserCard", "a.sprig"), ("stream_user_card", "a.sprig"), ("User_Card", "b.sprig"),
        ("Row", "b.sprig"), ("Row", "c.sprig")] := by
    decide +kernel
  obtain ⟨-, -, -, horder⟩ := find_reports {} cardFiles
  rw [emissions_eq, hmembers] at horder
  rw [← horder _ [⟨"row", [("Row", "b.sprig"), ("Row", "c.sprig")]⟩,
    ⟨"stream_row", [("Row", "b.sprig"), ("Row", "c.sprig")]⟩,
    ⟨"stream_user_card",
      [("UserCard", "a.sprig"), ("stream_user_card", "a.sprig"), ("User_Card", "b.sprig")]⟩,
    ⟨"user_card", [("UserCard", "a.sprig"), ("User_Card", "b.sprig")]⟩] (List.reverse_perm _)
    (by decide +kernel) (by decide +kernel)]
  decide

end Stencil.Cli.Clash
