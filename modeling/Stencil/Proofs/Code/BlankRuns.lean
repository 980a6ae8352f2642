/-
Collapsing as a normal form. The layout of a text is what its line feeds do apart from their
number: which of the other characters they part, and whether the text begins or ends with one.
Collapsing keeps the layout (`sameLayout_collapse`), and of all texts of one layout just one has no
two line feeds side by side (`SameLayout.eq_of_not_blankRun`).

Three descriptions of the collapsed text agree: the pass over the text that runs; every maximal run
of line feeds cut to one (`collapse_eq_runs`); and a search for two line feeds or more that replaces
what it finds (`replaced_iff`).
-/
import Mathlib.Data.List.SplitBy
import Stencil.Code.Collapse

namespace Stencil.Code

variable {c x : Char} {cs ds as bs : List Char}

/-! ## The pass over the text -/

/-- A line feed in front of another goes. -/
theorem collapse_feed (h : cs.head? = some '\n') : collapse ('\n' :: cs) = collapse cs := by
  simp [collapse, h]

/-- Any other character stays. -/
theorem collapse_cons (h : c = '\n' → cs.head? ≠ some '\n') :
    collapse (c :: cs) = c :: collapse cs := by
  rw [collapse, if_neg]
  simpa using h

theorem collapse_cons_of_ne (h : c ≠ '\n') (cs : List Char) :
    collapse (c :: cs) = c :: collapse cs :=
  collapse_cons fun hc => absurd hc h

/-- The recursion of `collapse`: a line feed goes, or the first character stays. -/
@[elab_as_elim]
theorem collapse_induction {motive : List Char → Prop} (cs : List Char) (nil : motive [])
    (feed : ∀ cs, cs.head? = some '\n' → motive cs → motive ('\n' :: cs))
    (cons : ∀ c cs, (c = '\n' → cs.head? ≠ some '\n') → motive cs → motive (c :: cs)) :
    motive cs := by
  induction cs with
  | nil => exact nil
  | cons c cs ih =>
    by_cases h : c = '\n' ∧ cs.head? = some '\n'
    · obtain ⟨rfl, hhead⟩ := h
      exact feed cs hhead ih
    · exact cons c cs (fun hc hhead => h ⟨hc, hhead⟩) ih

@[simp] theorem head?_collapse (cs : List Char) : (collapse cs).head? = cs.head? := by
  induction cs using collapse_induction with
  | nil => rfl
  | feed cs hhead ih => rw [collapse_feed hhead, ih, hhead, List.head?_cons]
  | cons c cs h ih => rw [collapse_cons h, List.head?_cons, List.head?_cons]

@[simp] theorem getLast?_collapse (cs : List Char) : (collapse cs).getLast? = cs.getLast? := by
  induction cs using collapse_induction with
  | nil => rfl
  | feed cs hhead ih =>
    obtain ⟨ds, rfl⟩ := List.head?_eq_some_iff.mp hhead
    rw [collapse_feed hhead, ih, List.getLast?_cons_cons]
  | cons c cs h ih => rw [collapse_cons h, List.getLast?_cons, List.getLast?_cons, ih]

@[simp] theorem mem_collapse : x ∈ collapse cs ↔ x ∈ cs := by
  induction cs using collapse_induction with
  | nil => rfl
  | feed cs hhead ih =>
    have hmem := List.mem_of_mem_head? hhead
    rw [collapse_feed hhead, ih, List.mem_cons]
    exact ⟨.inr, fun h => h.elim (fun hx => hx ▸ hmem) id⟩
  | cons c cs h ih => rw [collapse_cons h, List.mem_cons, List.mem_cons, ih]

/-! ## Texts without blank runs -/

theorem blankRun_cons_iff : ['\n', '\n'] <:+: c :: cs ↔
    (c = '\n' ∧ cs.head? = some '\n') ∨ ['\n', '\n'] <:+: cs := by
  rw [List.infix_cons_iff, List.cons_prefix_cons]
  cases cs with
  | nil => simp
  | cons d cs => simp [List.cons_prefix_cons, eq_comm]

theorem hasBlankRun_iff : hasBlankRun cs = true ↔ ['\n', '\n'] <:+: cs := by
  induction cs with
  | nil => simp [hasBlankRun]
  | cons c cs ih => simp [blankRun_cons_iff, ← ih, hasBlankRun]

theorem not_blankRun_collapse (cs : List Char) : ¬ ['\n', '\n'] <:+: collapse cs := by
  induction cs using collapse_induction with
  | nil => simp [collapse]
  | feed cs hhead ih => rwa [collapse_feed hhead]
  | cons c cs h ih =>
    rw [collapse_cons h, blankRun_cons_iff, head?_collapse]
    rintro (⟨hc, hhead⟩ | hrest)
    · exact h hc hhead
    · exact ih hrest

theorem collapse_eq_self (h : ¬ ['\n', '\n'] <:+: cs) : collapse cs = cs := by
  induction cs with
  | nil => rfl
  | cons c cs ih =>
    rw [blankRun_cons_iff, not_or, not_and] at h
    rw [collapse_cons h.1, ih h.2]

theorem collapse_collapse (cs : List Char) : collapse (collapse cs) = collapse cs :=
  collapse_eq_self (not_blankRun_collapse cs)

/-! ## Texts put together -/

/-- Two texts are collapsed apart, unless a line feed ends the first and one begins the second. -/
theorem collapse_append (h : as.getLast? = some '\n' → bs.head? ≠ some '\n') :
    collapse (as ++ bs) = collapse as ++ collapse bs := by
  induction as using collapse_induction with
  | nil => rfl
  | feed as hhead ih =>
    obtain ⟨ds, rfl⟩ := List.head?_eq_some_iff.mp hhead
    rw [List.getLast?_cons_cons] at h
    rw [List.cons_append, collapse_feed (by simp), ih h, collapse_feed hhead]
  | cons c as hc ih =>
    rw [collapse_cons hc, List.cons_append, List.cons_append]
    cases as with
    | nil => exact collapse_cons (by simpa using h)
    | cons d as =>
      rw [List.getLast?_cons_cons] at h
      rw [collapse_cons (by simpa using hc), ih h]

/-- Collapsing the parts of a text before the whole changes nothing. -/
theorem collapse_append_collapse (as bs : List Char) :
    collapse (collapse as ++ collapse bs) = collapse (as ++ bs) := by
  induction as using collapse_induction with
  | nil => exact collapse_collapse bs
  | feed as hhead ih =>
    rw [collapse_feed hhead, ih, List.cons_append, collapse_feed]
    simp [hhead]
  | cons c as h ih =>
    have hhead : (collapse as ++ collapse bs).head? = (as ++ bs).head? := by simp
    rw [collapse_cons h, List.cons_append, collapse, hhead, ih, List.cons_append, collapse]

/-- A character that is no line feed keeps what is before it and behind it apart. -/
theorem collapse_append_cons (hx : x ≠ '\n') (as bs : List Char) :
    collapse (as ++ x :: bs) = collapse as ++ x :: collapse bs := by
  rw [collapse_append (by simpa using fun _ => hx), collapse_cons_of_ne hx]

/-- Such a character of the collapsed text is one of the text, and what stands on each side of it
collapses by itself. -/
theorem exists_of_collapse_eq (hx : x ≠ '\n') (h : collapse cs = as ++ x :: bs) :
    ∃ as' bs', cs = as' ++ x :: bs' ∧ collapse as' = as ∧ collapse bs' = bs := by
  induction cs using collapse_induction generalizing as with
  | nil => simp [collapse] at h
  | feed cs hhead ih =>
    rw [collapse_feed hhead] at h
    obtain ⟨as', bs', rfl, rfl, rfl⟩ := ih h
    refine ⟨'\n' :: as', bs', rfl, collapse_feed ?_, rfl⟩
    cases as' with
    | nil => exact absurd (by simpa using hhead) hx
    | cons d as' => simpa using hhead
  | cons c cs hc ih =>
    rw [collapse_cons hc] at h
    cases as with
    | nil =>
      obtain ⟨rfl, rfl⟩ := List.cons.inj h
      exact ⟨[], cs, rfl, rfl, rfl⟩
    | cons a as =>
      obtain ⟨rfl, hrest⟩ := List.cons.inj h
      obtain ⟨as', bs', rfl, rfl, rfl⟩ := ih hrest
      refine ⟨c :: as', bs', rfl, collapse_cons ?_, rfl⟩
      cases as' with
      | nil => simp
      | cons d as' => simpa using hc

/-! ## Maximal runs -/

/-- The maximal runs of a text, of line feeds and of other characters in turn. -/
def runs (cs : List Char) : List (List Char) :=
  cs.splitBy fun a b => (a == '\n') == (b == '\n')

/-- A run with a single line feed for its line feeds. -/
def shortened (run : List Char) : List Char := if '\n' ∈ run then ['\n'] else run

theorem collapse_run {run : List Char} (hne : run ≠ [])
    (hrun : run.IsChain fun a b => ((a == '\n') == (b == '\n')) = true) :
    collapse run = shortened run := by
  induction run with
  | nil => exact absurd rfl hne
  | cons c run ih =>
    cases run with
    | nil => by_cases hc : c = '\n' <;> simp [collapse, shortened, hc, eq_comm]
    | cons d run =>
      rw [List.isChain_cons_cons] at hrun
      have htail := ih (by simp) hrun.2
      by_cases hc : c = '\n'
      · have hd : d = '\n' := by simpa [hc] using hrun.1
        rw [hc, collapse_feed (by simp [hd]), htail, hd]
        simp [shortened]
      · have hd : d ≠ '\n' := by simpa [hc] using hrun.1
        -- A line feed further on would be the first character of what the tail collapses to.
        have hmem : '\n' ∉ d :: run := by
          intro hmem
          rw [shortened, if_pos hmem, collapse_cons_of_ne hd] at htail
          exact hd (List.cons.inj htail).1
        rw [collapse_cons_of_ne hc, htail, shortened, shortened, if_neg hmem, if_neg]
        simp [hmem, Ne.symm hc]

theorem collapse_flatten {rs : List (List Char)} (hne : [] ∉ rs)
    (hruns : ∀ run ∈ rs, run.IsChain fun a b => ((a == '\n') == (b == '\n')) = true)
    (hmaximal : rs.IsChain fun r s => ∃ hr hs,
      ((r.getLast hr == '\n') == (s.head hs == '\n')) = false) :
    collapse rs.flatten = rs.flatMap shortened := by
  induction rs with
  | nil => rfl
  | cons run rs ih =>
    rw [List.mem_cons, not_or] at hne
    rw [List.forall_mem_cons] at hruns
    have hapart : run.getLast? = some '\n' → rs.flatten.head? ≠ some '\n' := by
      cases rs with
      | nil => simp
      | cons next rs =>
        obtain ⟨hr, hs, hdiffer⟩ := (List.isChain_cons_cons.mp hmaximal).1
        intro hlast hhead
        obtain ⟨d, next, rfl⟩ := List.exists_cons_of_ne_nil hs
        have hd : d = '\n' := by simpa using hhead
        have hr' : run.getLast hr = '\n' := by
          rwa [List.getLast?_eq_some_getLast hr, Option.some.injEq] at hlast
        simp [hd, hr'] at hdiffer
    rw [List.flatten_cons, List.flatMap_cons, collapse_append hapart,
      collapse_run (Ne.symm hne.1) hruns.1, ih hne.2 hruns.2 hmaximal.tail]

/-- **Collapsing cuts every maximal run of line feeds to one.** -/
theorem collapse_eq_runs (cs : List Char) : collapse cs = (runs cs).flatMap shortened := by
  obtain ⟨hflatten, hne, hruns, hmaximal⟩ := List.splitBy_eq_iff.mp (rfl : runs cs = runs cs)
  rw [← collapse_flatten hne hruns hmaximal, ← hflatten]

/-! ## Search and replace -/

/-- What a search for two line feeds or more makes of a text, if it replaces all it finds by a
single line feed. It finds the first place where two line feeds stand, takes as many as there are,
and goes on behind them. -/
inductive Replaced : List Char → List Char → Prop
  | unmatched {cs : List Char} (hnone : ¬ ['\n', '\n'] <:+: cs) : Replaced cs cs
  | matched (before : List Char) (n : Nat) (rest : List Char) {out : List Char}
      (hfirst : ¬ ['\n', '\n'] <:+: before ++ ['\n']) (hlongest : rest.head? ≠ some '\n')
      (hrest : Replaced rest out) :
      Replaced (before ++ List.replicate (n + 2) '\n' ++ rest) (before ++ '\n' :: out)

theorem collapse_replicate (n : Nat) : collapse (List.replicate (n + 1) '\n') = ['\n'] := by
  induction n with
  | zero => rfl
  | succ n ih => rw [List.replicate_succ, collapse_feed (by simp [List.replicate_succ]), ih]

theorem Replaced.eq_collapse {out : List Char} (h : Replaced cs out) : out = collapse cs := by
  induction h with
  | unmatched hnone => exact (collapse_eq_self hnone).symm
  | matched before n rest hfirst hlongest _ ih =>
    have hbefore : ¬ ['\n', '\n'] <:+: before := fun h =>
      hfirst (List.IsInfix.trans h (List.prefix_append before ['\n']).isInfix)
    have hapart : before.getLast? ≠ some '\n' := by
      intro hlast
      obtain ⟨front, rfl⟩ := List.getLast?_eq_some_iff.mp hlast
      exact hfirst ⟨front, [], by simp⟩
    rw [collapse_append fun _ => hlongest, collapse_append fun h => absurd h hapart,
      collapse_eq_self hbefore, collapse_replicate, ← ih, List.append_assoc, List.singleton_append]

theorem head?_before_run (before rest : List Char) (n : Nat) :
    (before ++ List.replicate (n + 2) '\n' ++ rest).head? = (before ++ ['\n']).head? := by
  cases before <;> simp [List.replicate_succ]

theorem Replaced.feed {out : List Char} (hhead : cs.head? = some '\n') (h : Replaced cs out) :
    Replaced ('\n' :: cs) out := by
  cases h with
  | unmatched hnone =>
    obtain ⟨ds, rfl⟩ := List.head?_eq_some_iff.mp hhead
    rw [blankRun_cons_iff, not_or, not_and] at hnone
    exact .matched [] 0 ds (by decide) (hnone.1 rfl) (.unmatched hnone.2)
  | matched before n rest hfirst hlongest hrest =>
    cases before with
    | nil => exact .matched [] (n + 1) rest (by decide) hlongest hrest
    | cons b before =>
      obtain rfl : b = '\n' := by simpa using hhead
      rw [List.cons_append, blankRun_cons_iff, not_or, not_and] at hfirst
      have hbehind := fun h => hfirst.1 rfl ((head?_before_run before rest n).symm.trans h)
      exact .matched [] 0 _ (by decide) hbehind (.matched before n rest hfirst.2 hlongest hrest)

theorem Replaced.cons {out : List Char} (hc : c = '\n' → cs.head? ≠ some '\n')
    (h : Replaced cs out) : Replaced (c :: cs) (c :: out) := by
  cases h with
  | unmatched hnone =>
    refine .unmatched fun h => ?_
    rcases blankRun_cons_iff.mp h with ⟨hfeed, hhead⟩ | hrest
    · exact hc hfeed hhead
    · exact hnone hrest
  | matched before n rest hfirst hlongest hrest =>
    refine .matched (c :: before) n rest (fun h => ?_) hlongest hrest
    rcases blankRun_cons_iff.mp h with ⟨hfeed, hhead⟩ | hinner
    · exact hc hfeed ((head?_before_run before rest n).trans hhead)
    · exact hfirst hinner

/-- **Collapsing is search and replace.** -/
theorem replaced_iff {out : List Char} : Replaced cs out ↔ out = collapse cs := by
  constructor
  · exact Replaced.eq_collapse
  · rintro rfl
    induction cs using collapse_induction with
    | nil => exact .unmatched (by simp)
    | feed cs hhead ih =>
      rw [collapse_feed hhead]
      exact ih.feed hhead
    | cons c cs h ih =>
      rw [collapse_cons h]
      exact ih.cons h

/-! ## Layout -/

/-- The text without its line feeds. -/
def withoutFeeds (cs : List Char) : List Char := cs.filter (· != '\n')

/-- A line feed stands between number `i` and number `j` of the other characters, counted from
zero. -/
def Parted (cs : List Char) (i j : Nat) : Prop :=
  ∃ before x between y after, cs = before ++ x :: (between ++ y :: after) ∧ x ≠ '\n' ∧ y ≠ '\n' ∧
    (withoutFeeds before).length = i ∧ i + 1 + (withoutFeeds between).length = j ∧ '\n' ∈ between

/-- Two texts have the same characters other than line feeds, parted at the same places, and both or
neither of them begin with a line feed, and both or neither end with one. -/
structure SameLayout (cs ds : List Char) : Prop where
  characters : withoutFeeds cs = withoutFeeds ds
  parted : ∀ i j, Parted cs i j ↔ Parted ds i j
  leading : cs.head? = some '\n' ↔ ds.head? = some '\n'
  trailing : cs.getLast? = some '\n' ↔ ds.getLast? = some '\n'

theorem SameLayout.symm (h : SameLayout cs ds) : SameLayout ds cs where
  characters := h.characters.symm
  parted i j := (h.parted i j).symm
  leading := h.leading.symm
  trailing := h.trailing.symm

theorem SameLayout.trans {es : List Char} (h : SameLayout cs ds) (h' : SameLayout ds es) :
    SameLayout cs es where
  characters := h.characters.trans h'.characters
  parted i j := (h.parted i j).trans (h'.parted i j)
  leading := h.leading.trans h'.leading
  trailing := h.trailing.trans h'.trailing

@[simp] theorem withoutFeeds_feed (cs : List Char) :
    withoutFeeds ('\n' :: cs) = withoutFeeds cs := by
  simp [withoutFeeds]

theorem withoutFeeds_cons (hx : x ≠ '\n') (cs : List Char) :
    withoutFeeds (x :: cs) = x :: withoutFeeds cs := by
  simp [withoutFeeds, hx]

theorem withoutFeeds_collapse (cs : List Char) : withoutFeeds (collapse cs) = withoutFeeds cs := by
  induction cs using collapse_induction with
  | nil => rfl
  | feed cs hhead ih => rw [collapse_feed hhead, ih, withoutFeeds_feed]
  | cons c cs h ih =>
    rw [collapse_cons h]
    by_cases hc : c = '\n'
    · rw [hc, withoutFeeds_feed, withoutFeeds_feed, ih]
    · rw [withoutFeeds_cons hc, withoutFeeds_cons hc, ih]

theorem parted_collapse_iff (cs : List Char) (i j : Nat) :
    Parted (collapse cs) i j ↔ Parted cs i j := by
  constructor
  · rintro ⟨before, x, between, y, after, h, hx, hy, hi, hj, hmem⟩
    obtain ⟨before', rest, rfl, rfl, hrest⟩ := exists_of_collapse_eq hx h
    obtain ⟨between', after', rfl, rfl, rfl⟩ := exists_of_collapse_eq hy hrest
    rw [withoutFeeds_collapse] at hi hj
    exact ⟨before', x, between', y, after', rfl, hx, hy, hi, hj, mem_collapse.mp hmem⟩
  · rintro ⟨before, x, between, y, after, rfl, hx, hy, hi, hj, hmem⟩
    refine ⟨collapse before, x, collapse between, y, collapse after, ?_, hx, hy, ?_, ?_,
      mem_collapse.mpr hmem⟩
    · rw [collapse_append_cons hx, collapse_append_cons hy]
    · rwa [withoutFeeds_collapse]
    · rwa [withoutFeeds_collapse]

/-- **Collapsing keeps the layout.** -/
theorem sameLayout_collapse (cs : List Char) : SameLayout (collapse cs) cs where
  characters := withoutFeeds_collapse cs
  parted := parted_collapse_iff cs
  leading := by rw [head?_collapse]
  trailing := by rw [getLast?_collapse]

/-! ### One text for each layout -/

theorem parted_feed_iff {i j : Nat} : Parted ('\n' :: cs) i j ↔ Parted cs i j := by
  constructor
  · rintro ⟨before, x, between, y, after, h, hx, hy, hi, hj, hmem⟩
    cases before with
    | nil => exact absurd (List.cons.inj h).1.symm hx
    | cons b before =>
      obtain ⟨rfl, rfl⟩ := List.cons.inj h
      exact ⟨before, x, between, y, after, rfl, hx, hy, by simpa using hi, hj, hmem⟩
  · rintro ⟨before, x, between, y, after, rfl, hx, hy, hi, hj, hmem⟩
    exact ⟨'\n' :: before, x, between, y, after, rfl, hx, hy, by simpa using hi, hj, hmem⟩

theorem parted_succ_iff {i j : Nat} (hc : c ≠ '\n') :
    Parted (c :: cs) (i + 1) (j + 1) ↔ Parted cs i j := by
  constructor
  · rintro ⟨before, x, between, y, after, h, hx, hy, hi, hj, hmem⟩
    cases before with
    | nil => simp [withoutFeeds] at hi
    | cons b before =>
      obtain ⟨rfl, rfl⟩ := List.cons.inj h
      rw [withoutFeeds_cons hc, List.length_cons] at hi
      exact ⟨before, x, between, y, after, rfl, hx, hy, by omega, by omega, hmem⟩
  · rintro ⟨before, x, between, y, after, rfl, hx, hy, hi, hj, hmem⟩
    refine ⟨c :: before, x, between, y, after, rfl, hx, hy, ?_, by omega, hmem⟩
    rw [withoutFeeds_cons hc, List.length_cons, hi]

theorem withoutFeeds_eq_nil_iff : withoutFeeds cs = [] ↔ ∀ a ∈ cs, a = '\n' := by
  simp [withoutFeeds]

/-- The first two of the other characters are parted if a line feed follows the first. -/
theorem parted_zero_iff (hc : c ≠ '\n') (hcs : withoutFeeds cs ≠ []) :
    Parted (c :: cs) 0 1 ↔ cs.head? = some '\n' := by
  constructor
  · rintro ⟨before, x, between, y, after, h, -, -, hi, hj, hmem⟩
    cases before with
    | cons b before =>
      obtain ⟨rfl, -⟩ := List.cons.inj h
      simp [withoutFeeds_cons hc] at hi
    | nil =>
      obtain ⟨rfl, rfl⟩ := List.cons.inj h
      have hnil : withoutFeeds between = [] := List.length_eq_zero_iff.mp (by omega)
      obtain ⟨d, between, rfl⟩ := List.exists_cons_of_ne_nil (List.ne_nil_of_mem hmem)
      rw [withoutFeeds_eq_nil_iff.mp hnil d List.mem_cons_self, List.cons_append, List.head?_cons]
  · intro hhead
    obtain ⟨y, rest, hfirst⟩ := List.exists_cons_of_ne_nil hcs
    obtain ⟨between, after, rfl, hbetween, hy, -⟩ := List.filter_eq_cons_iff.mp hfirst
    have hfeeds : withoutFeeds between = [] := List.filter_eq_nil_iff.mpr hbetween
    have hy : y ≠ '\n' := by simpa using hy
    refine ⟨[], c, between, y, after, rfl, hc, hy, rfl, by simp [hfeeds], ?_⟩
    cases between with
    | nil => exact absurd (by simpa using hhead) hy
    | cons d between =>
      obtain rfl : d = '\n' := by simpa using hhead
      exact List.mem_cons_self

theorem getLast?_cons_of_ne (hc : c ≠ '\n') :
    (c :: cs).getLast? = some '\n' ↔ cs.getLast? = some '\n' := by
  cases cs with
  | nil => simp [hc]
  | cons d cs => rw [List.getLast?_cons_cons]

/-- A text of line feeds alone begins with one if it ends with one. -/
theorem head?_iff_getLast? (h : withoutFeeds cs = []) :
    cs.head? = some '\n' ↔ cs.getLast? = some '\n' := by
  obtain ⟨n, rfl⟩ : ∃ n, cs = List.replicate n '\n' :=
    ⟨_, List.eq_replicate_of_mem (withoutFeeds_eq_nil_iff.mp h)⟩
  rw [List.head?_replicate, List.getLast?_replicate]

theorem eq_nil_of_withoutFeeds (h : withoutFeeds cs = []) (hhead : cs.head? ≠ some '\n') :
    cs = [] := by
  cases cs with
  | nil => rfl
  | cons c cs => exact absurd (by simp [withoutFeeds_eq_nil_iff.mp h c]) hhead

theorem SameLayout.of_feed (h : SameLayout ('\n' :: cs) ('\n' :: ds)) (hcs : cs.head? ≠ some '\n')
    (hds : ds.head? ≠ some '\n') : SameLayout cs ds := by
  have hcharacters : withoutFeeds cs = withoutFeeds ds := by simpa using h.characters
  refine ⟨hcharacters, fun i j => ?_, iff_of_false hcs hds, ?_⟩
  · rw [← parted_feed_iff, h.parted, parted_feed_iff]
  · cases cs with
    | nil => rw [eq_nil_of_withoutFeeds hcharacters.symm hds]
    | cons c cs =>
      cases ds with
      | nil => exact absurd (eq_nil_of_withoutFeeds hcharacters hcs) (List.cons_ne_nil c cs)
      | cons d ds => simpa only [List.getLast?_cons_cons] using h.trailing

theorem SameLayout.of_cons (hc : c ≠ '\n') (h : SameLayout (c :: cs) (c :: ds)) :
    SameLayout cs ds := by
  have hcharacters : withoutFeeds cs = withoutFeeds ds := by
    have := h.characters
    rwa [withoutFeeds_cons hc, withoutFeeds_cons hc, List.cons.injEq, and_iff_right rfl] at this
  have htrailing : cs.getLast? = some '\n' ↔ ds.getLast? = some '\n' := by
    rw [← getLast?_cons_of_ne hc, h.trailing, getLast?_cons_of_ne hc]
  refine ⟨hcharacters, fun i j => ?_, ?_, htrailing⟩
  · rw [← parted_succ_iff hc, h.parted, parted_succ_iff hc]
  · -- A line feed here parts two characters, or else it belongs to the end of the text.
    by_cases hnil : withoutFeeds cs = []
    · rw [head?_iff_getLast? hnil, htrailing, head?_iff_getLast? (hcharacters ▸ hnil)]
    · rw [← parted_zero_iff hc hnil, h.parted, parted_zero_iff hc (hcharacters ▸ hnil)]

/-- **A text without blank runs is known from its layout.** -/
theorem SameLayout.eq_of_not_blankRun (h : SameLayout cs ds) (hcs : ¬ ['\n', '\n'] <:+: cs)
    (hds : ¬ ['\n', '\n'] <:+: ds) : cs = ds := by
  induction cs generalizing ds with
  | nil =>
    have hhead : ds.head? ≠ some '\n' := fun hhead => by simpa using h.leading.mpr hhead
    exact (eq_nil_of_withoutFeeds h.characters.symm hhead).symm
  | cons c cs ih =>
    cases ds with
    | nil =>
      have hhead : (c :: cs).head? ≠ some '\n' := fun hhead => by simpa using h.leading.mp hhead
      exact eq_nil_of_withoutFeeds h.characters hhead
    | cons d ds =>
      rw [blankRun_cons_iff, not_or, not_and] at hcs hds
      have hfeed : c = '\n' ↔ d = '\n' := by simpa using h.leading
      by_cases hc : c = '\n'
      · obtain rfl := hc
        obtain rfl := hfeed.mp rfl
        rw [ih (h.of_feed (hcs.1 rfl) (hds.1 rfl)) hcs.2 hds.2]
      · have hcharacters := h.characters
        rw [withoutFeeds_cons hc, withoutFeeds_cons (mt hfeed.mpr hc)] at hcharacters
        obtain rfl : c = d := (List.cons.inj hcharacters).1
        rw [ih (h.of_cons hc) hcs.2 hds.2]

theorem collapse_eq_collapse_iff : collapse cs = collapse ds ↔ SameLayout cs ds := by
  constructor
  · intro h
    have hcs := sameLayout_collapse cs
    rw [h] at hcs
    exact hcs.symm.trans (sameLayout_collapse ds)
  · intro h
    have hlayout := (sameLayout_collapse cs).trans (h.trans (sameLayout_collapse ds).symm)
    exact hlayout.eq_of_not_blankRun (not_blankRun_collapse cs) (not_blankRun_collapse ds)

/-! ## Texts as strings -/

@[simp] theorem toList_collapseBlankRuns (text : String) :
    (collapseBlankRuns text).toList = collapse text.toList := by
  rw [collapseBlankRuns, String.toList_ofList]

theorem collapseBlankRuns?_eq_none_iff {text : String} :
    collapseBlankRuns? text = none ↔ ¬ ['\n', '\n'] <:+: text.toList := by
  rw [collapseBlankRuns?, ← hasBlankRun_iff]
  cases hasBlankRun text.toList <;> simp

/-- A text that is used as it is would not be changed. -/
theorem getD_collapseBlankRuns? (text : String) :
    (collapseBlankRuns? text).getD text = collapseBlankRuns text := by
  by_cases h : ['\n', '\n'] <:+: text.toList
  · rw [collapseBlankRuns?, if_pos (hasBlankRun_iff.mpr h), Option.getD_some]
  · rw [collapseBlankRuns?_eq_none_iff.mpr h, Option.getD_none, collapseBlankRuns,
      collapse_eq_self h, String.ofList_toList]

/-- **Collapsing blank runs is a normal form.** The collapsed text has a single line feed for every
maximal run of line feeds, as a search for two or more of them and a replacement of what it finds
would leave it. It is the one text of its layout without two line feeds side by side, so that two
texts collapse to the same one exactly if they have the same layout; a text without two line feeds
side by side, and no other, is used as it is; and the parts of a text may be collapsed before the
whole. -/
theorem collapseBlankRuns_normal_form (text other : String) :
    (collapseBlankRuns text).toList = (runs text.toList).flatMap shortened ∧
      (∀ out, Replaced text.toList out ↔ out = (collapseBlankRuns text).toList) ∧
      ¬ ['\n', '\n'] <:+: (collapseBlankRuns text).toList ∧
      SameLayout (collapseBlankRuns text).toList text.toList ∧
      (collapseBlankRuns text = collapseBlankRuns other ↔ SameLayout text.toList other.toList) ∧
      collapseBlankRuns (collapseBlankRuns text) = collapseBlankRuns text ∧
      (collapseBlankRuns? text = none ↔ ¬ ['\n', '\n'] <:+: text.toList) ∧
      (collapseBlankRuns? text).getD text = collapseBlankRuns text ∧
      collapseBlankRuns (text ++ other) =
        collapseBlankRuns (collapseBlankRuns text ++ collapseBlankRuns other) := by
  simp only [← String.toList_inj, toList_collapseBlankRuns, String.toList_append]
  refine ⟨collapse_eq_runs _, fun _ => replaced_iff, not_blankRun_collapse _, sameLayout_collapse _,
    collapse_eq_collapse_iff, collapse_collapse _, collapseBlankRuns?_eq_none_iff, ?_,
    (collapse_append_collapse _ _).symm⟩
  rw [getD_collapseBlankRuns?, toList_collapseBlankRuns]

example : collapseBlankRuns? "\n\na\n" = some "\na\n" ∧ collapseBlankRuns? "\nb\n" = none ∧
    collapseBlankRuns? ("\n\na\n" ++ "\nb\n") = some "\na\nb\n" := by
  decide

end Stencil.Code
