/-
What the builder of an arena keeps true. It looks at two places only, the block whose children it
reads and the last line, so everything it relies on is a fact about these two and the entries
before them. Every entry is linked to the last one before it that is indented less, which is
indented by one less (`Linked.parents`); the children of an entry are those that name it as their
parent (`Linked.children`); the block is the parent of the last line (`Builder.Sound`).

Along parents the indentation falls by one tab at a time, down to the `-1` of the entry for the
whole source. So a climb that is asked for by a line with fewer tabs ends before it runs out of
parents, at an entry with one tab less than the line (`Linked.climb`). Where a line belongs then
depends on the tabs of the last line alone (`Sound.blockFor?_of_fits`,
`Sound.blockFor?_of_not_fits`).
-/
import Mathlib.Data.List.Forall2
import Mathlib.Data.List.Range
import Stencil.Outline

namespace Stencil

/-- What an entry says apart from its links. -/
def Entry.label (e : Entry) : String × Int × Nat := (e.text, e.indent, e.line)

/-- What the entry of a line says apart from its links. -/
def Line.label (line : Line) : String × Int × Nat := (line.text, line.indent, line.number)

theorem label_eq_iff {e : Entry} {line : Line} : e.label = line.label ↔
    e.text = line.text ∧ e.indent = line.indent ∧ e.line = line.number := by
  simp [Entry.label, Line.label]

/-- What can be told of entries from what they say can be told of the lines that say the same. -/
theorem map_eq_of_labels {α : Type} {f : Entry → α} {g : Line → α}
    (hfg : ∀ e line, e.label = line.label → f e = g line) {es : List Entry} {lines : List Line}
    (h : es.map Entry.label = lines.map Line.label) : es.map f = lines.map g := by
  rw [← List.forall₂_eq_eq_eq, List.forall₂_map_left_iff, List.forall₂_map_right_iff] at h ⊢
  exact h.imp hfg

namespace Arena

/-- The children of an entry. -/
def childrenAt (arena : Arena) (id : Nat) : List Nat := arena[id]?.elim [] Entry.children

/-- The places of the entries that have this parent. -/
def childIds (arena : Arena) (parent : Nat) : List Nat :=
  (List.range arena.length).filter fun id => arena.parentAt id = some parent

/-- Among the entries before the place `id`, `parent` is the last that is indented by less than
`indent`, and it is indented by one less. -/
def Nearest (arena : Arena) (parent id : Nat) (indent : Int) : Prop :=
  parent < id ∧ arena.indentAt parent + 1 = indent ∧
    ∀ k, parent < k → k < id → indent ≤ arena.indentAt k

/-- The entries form a tree by their indentation. -/
structure Linked (arena : Arena) : Prop where
  nonempty : 0 < arena.length
  root : arena.indentAt 0 = -1
  orphan : arena.parentAt 0 = none
  /-- The parent is the last entry before that is indented less, and it is indented by one less. -/
  parents : ∀ id, 0 < id → id < arena.length →
    ∃ parent, arena.parentAt id = some parent ∧ arena.Nearest parent id (arena.indentAt id)
  /-- The children are the entries with this parent, in order. -/
  children : ∀ id, id < arena.length → arena.childrenAt id = arena.childIds id

variable {arena : Arena} {block id : Nat} {line : Line} {policy : DedentPolicy}

/-! ## Attaching a line -/

theorem length_attach (arena : Arena) (block : Nat) (line : Line) :
    (arena.attach block line).length = arena.length + 1 := by
  simp [attach]

/-- An entry after a line was attached: the block has one more child. -/
theorem getElem?_attach_of_lt (h : id < arena.length) (block : Nat) (line : Line) :
    (arena.attach block line)[id]? = arena[id]?.map fun e =>
      if block = id then { e with children := e.children ++ [arena.length] } else e := by
  rw [attach, List.getElem?_modify, List.getElem?_append_left h]
  rfl

theorem getElem?_attach_length (h : block < arena.length) (line : Line) :
    (arena.attach block line)[arena.length]? = some (Entry.ofLine line block) := by
  have hne : block ≠ arena.length := by omega
  simp [attach, hne]

theorem indentAt_attach_of_lt (h : id < arena.length) (block : Nat) (line : Line) :
    (arena.attach block line).indentAt id = arena.indentAt id := by
  rw [indentAt, indentAt, getElem?_attach_of_lt h, List.getElem?_eq_getElem h]
  dsimp only [Option.map_some, Option.elim_some]
  split <;> rfl

theorem parentAt_attach_of_lt (h : id < arena.length) (block : Nat) (line : Line) :
    (arena.attach block line).parentAt id = arena.parentAt id := by
  rw [parentAt, parentAt, getElem?_attach_of_lt h, List.getElem?_eq_getElem h]
  dsimp only [Option.map_some, Option.bind_some]
  split <;> rfl

theorem childrenAt_attach_of_lt (h : id < arena.length) (block : Nat) (line : Line) :
    (arena.attach block line).childrenAt id =
      arena.childrenAt id ++ if block = id then [arena.length] else [] := by
  rw [childrenAt, childrenAt, getElem?_attach_of_lt h, List.getElem?_eq_getElem h]
  dsimp only [Option.map_some, Option.elim_some]
  split
  · rfl
  · exact (List.append_nil _).symm

theorem indentAt_attach_length (h : block < arena.length) (line : Line) :
    (arena.attach block line).indentAt arena.length = line.indent := by
  rw [indentAt, getElem?_attach_length h]
  rfl

theorem parentAt_attach_length (h : block < arena.length) (line : Line) :
    (arena.attach block line).parentAt arena.length = some block := by
  rw [parentAt, getElem?_attach_length h]
  rfl

theorem childrenAt_attach_length (h : block < arena.length) (line : Line) :
    (arena.attach block line).childrenAt arena.length = [] := by
  rw [childrenAt, getElem?_attach_length h]
  rfl

/-- The new line is one more child of its block. -/
theorem childIds_attach (h : block < arena.length) (line : Line) (id : Nat) :
    (arena.attach block line).childIds id =
      arena.childIds id ++ if block = id then [arena.length] else [] := by
  have hold : (List.range arena.length).filter
      (fun k => (arena.attach block line).parentAt k = some id) = arena.childIds id := by
    refine List.filter_congr fun k hk => ?_
    rw [parentAt_attach_of_lt (List.mem_range.mp hk)]
  rw [childIds, length_attach, List.range_succ, List.filter_append, hold, List.filter_singleton,
    parentAt_attach_length h]
  by_cases hid : block = id <;> simp [hid]

/-- Entries may change their links and go on to say the same. -/
theorem map_label_modify (arena : Arena) (block : Nat) (update : Entry → Entry)
    (h : ∀ e, (update e).label = e.label) :
    (arena.modify block update).map Entry.label = arena.map Entry.label := by
  refine List.ext_getElem? fun id => ?_
  rw [List.getElem?_map, List.getElem?_map, List.getElem?_modify, Option.map_eq_map,
    Option.map_map]
  congr 1
  funext e
  dsimp only [Function.comp_apply]
  split
  · exact h e
  · rfl

theorem map_label_attach (arena : Arena) (block : Nat) (line : Line) :
    (arena.attach block line).map Entry.label = arena.map Entry.label ++ [line.label] := by
  rw [attach, map_label_modify, List.map_append]
  · rfl
  · exact fun _ => rfl

theorem Nearest.unique {parent other : Nat} {indent : Int} (h : arena.Nearest parent id indent)
    (h' : arena.Nearest other id indent) : parent = other := by
  obtain ⟨hlt, hindent, hbetween⟩ := h
  obtain ⟨hlt', hindent', hbetween'⟩ := h'
  rcases Nat.lt_trichotomy parent other with hbefore | heq | hbehind
  · have := hbetween other hbefore hlt'
    omega
  · exact heq
  · have := hbetween' parent hbehind hlt
    omega

theorem Nearest.attach {parent : Nat} {indent : Int} (h : arena.Nearest parent id indent)
    (hid : id ≤ arena.length) (block : Nat) (line : Line) :
    (arena.attach block line).Nearest parent id indent := by
  obtain ⟨hlt, hindent, hbetween⟩ := h
  refine ⟨hlt, ?_, fun k hk hkid => ?_⟩
  · rwa [indentAt_attach_of_lt (by omega)]
  · rw [indentAt_attach_of_lt (by omega)]
    exact hbetween k hk hkid

/-! ## Parents -/

namespace Linked

/-- A parent is the one that the indentation says. -/
theorem nearest_of_parentAt (h : Linked arena) {parent : Nat}
    (hparent : arena.parentAt id = some parent) :
    arena.Nearest parent id (arena.indentAt id) := by
  have hpos : 0 < id := by
    refine Nat.pos_of_ne_zero fun hzero => ?_
    rw [hzero, h.orphan] at hparent
    cases hparent
  have hlt : id < arena.length := by
    by_contra hge
    rw [parentAt, List.getElem?_eq_none (by omega)] at hparent
    cases hparent
  obtain ⟨_, hother, hnearest⟩ := h.parents id hpos hlt
  cases hparent.symm.trans hother
  exact hnearest

/-- Only the entry for the whole source is indented by less than nothing. -/
theorem indentAt_nonneg (h : Linked arena) (id : Nat) (hpos : 0 < id) (hlt : id < arena.length) :
    0 ≤ arena.indentAt id := by
  induction id using Nat.strongRecOn with
  | ind id ih =>
    obtain ⟨parent, -, hbefore, hindent, -⟩ := h.parents id hpos hlt
    by_cases hparent : parent = 0
    · rw [hparent, h.root] at hindent
      omega
    · have := ih parent hbefore (by omega) (by omega)
      omega

/-- **A climb does not run out of parents** as long as it asks for no more levels than the entry is
deep. It ends at the last entry that is indented by so much less. -/
theorem climb (h : Linked arena) (levels : Nat) (hid : id < arena.length)
    (hlevels : (levels : Int) ≤ arena.indentAt id + 1) :
    ∃ top, arena.climb levels id = some top ∧ top ≤ id ∧
      arena.indentAt top + levels = arena.indentAt id ∧
        ∀ k, top < k → k ≤ id → arena.indentAt top < arena.indentAt k := by
  induction levels generalizing id with
  | zero => exact ⟨id, rfl, Nat.le_refl id, by omega, by omega⟩
  | succ levels ih =>
    have hpos : 0 < id := by
      by_contra hzero
      have hroot := h.root
      rw [show id = 0 by omega] at hlevels
      omega
    obtain ⟨parent, hparent, hbefore, hindent, hbetween⟩ := h.parents id hpos hid
    have hparentLength : parent < arena.length := by omega
    obtain ⟨top, hclimb, htop, hlevel, habove⟩ := ih hparentLength (by omega)
    refine ⟨top, ?_, by omega, by omega, fun k hk hkid => ?_⟩
    · rw [Arena.climb, hparent]
      exact hclimb
    · -- Up to the parent the induction speaks; behind it stand the entry and what is below it.
      rcases Nat.lt_trichotomy k id with hlt | heq | hgt
      · by_cases hkparent : k ≤ parent
        · exact habove k hk hkparent
        · have := hbetween k (by omega) hlt
          omega
      · rw [heq]
        omega
      · omega

/-- No entry names a parent that is not there yet. -/
theorem childIds_length (h : Linked arena) : arena.childIds arena.length = [] := by
  refine List.filter_eq_nil_iff.mpr fun k hk hparent => ?_
  have hbefore := (h.nearest_of_parentAt (of_decide_eq_true hparent)).1
  have hk := List.mem_range.mp hk
  omega

/-- **A line that is attached where it belongs is linked like the others.** -/
theorem attach (h : Linked arena) (hblock : arena.Nearest block arena.length line.indent) :
    Linked (arena.attach block line) where
  nonempty := by rw [length_attach]; omega
  root := by rw [indentAt_attach_of_lt h.nonempty, h.root]
  orphan := by rw [parentAt_attach_of_lt h.nonempty, h.orphan]
  parents id hpos hid := by
    rw [length_attach] at hid
    by_cases hlt : id < arena.length
    · rw [parentAt_attach_of_lt hlt, indentAt_attach_of_lt hlt]
      obtain ⟨parent, hparent, hnearest⟩ := h.parents id hpos hlt
      exact ⟨parent, hparent, hnearest.attach (by omega) block line⟩
    · obtain rfl : id = arena.length := by omega
      rw [parentAt_attach_length hblock.1, indentAt_attach_length hblock.1]
      exact ⟨block, rfl, hblock.attach (Nat.le_refl _) block line⟩
  children id hid := by
    rw [length_attach] at hid
    rw [childIds_attach hblock.1]
    by_cases hlt : id < arena.length
    · rw [childrenAt_attach_of_lt hlt, h.children id hlt]
    · obtain rfl : id = arena.length := by omega
      have hne : block ≠ arena.length := by
        have := hblock.1
        omega
      rw [childrenAt_attach_length hblock.1, h.childIds_length, if_neg hne, List.append_nil]

end Linked

/-! ## The two places that the builder looks at -/

/-- A line with this many tabs may follow one with `previous` tabs. At the start of a source
`previous` is `-1`, so that the first line has none. -/
def Fits (policy : DedentPolicy) (previous : Int) (tabs : Nat) : Prop :=
  tabs ≤ previous + 1 ∧ (policy = .singleLevel → previous ≤ tabs + 1)

namespace Builder

variable {b b' : Builder} {tabs : Nat}

/-- The entries are linked, and the block is the parent of the last line. -/
structure Sound (b : Builder) : Prop extends Linked b.arena where
  last : b.last + 1 = b.arena.length
  block : b.last = 0 ∧ b.block = 0 ∨ b.arena.parentAt b.last = some b.block

theorem sound_start : start.Sound where
  nonempty := Nat.one_pos
  root := rfl
  orphan := rfl
  parents id hpos hid := by
    have : id < 1 := hid
    omega
  children id hid := by
    obtain rfl : id = 0 := Nat.lt_one_iff.mp hid
    rfl
  last := rfl
  block := .inl ⟨rfl, rfl⟩

/-- The tabs of the last line, `-1` when there is none. -/
def previous (b : Builder) : Int := b.arena.indentAt b.last

namespace Sound

/-- The block is indented by one less than the last line, or there is only the entry for the whole
source. -/
theorem indentAt_block (h : b.Sound) :
    b.last = b.block ∧ b.arena.indentAt b.block = -1 ∧ b.previous = -1 ∨
      b.last ≠ b.block ∧ b.arena.indentAt b.block + 1 = b.previous ∧ 0 ≤ b.previous := by
  rcases h.block with ⟨hlast, hblock⟩ | hparent
  · rw [previous, hlast, hblock]
    exact .inl ⟨rfl, h.root, h.root⟩
  · obtain ⟨hbefore, hindent, -⟩ := h.nearest_of_parentAt hparent
    have hlast := h.last
    have := h.indentAt_nonneg b.last (by omega) (by omega)
    exact .inr ⟨by omega, hindent, this⟩

theorem nearest_last (h : b.Sound) :
    b.arena.Nearest b.last b.arena.length (b.previous + 1) := by
  have hlast := h.last
  exact ⟨by omega, rfl, by omega⟩

/-- No entry behind the block is indented by less than the last line. -/
theorem nearest_block (h : b.Sound) (hlast : b.last ≠ b.block) :
    b.arena.Nearest b.block b.arena.length b.previous := by
  have hlength := h.last
  have hparent : b.arena.parentAt b.last = some b.block := by
    rcases h.block with ⟨hlast', hblock⟩ | hparent
    · omega
    · exact hparent
  obtain ⟨hbefore, hindent, hbetween⟩ := h.nearest_of_parentAt hparent
  refine ⟨by omega, hindent, fun k hk hklength => ?_⟩
  by_cases hklast : k = b.last
  · rw [hklast]
    exact Int.le_refl _
  · exact hbetween k hk (by omega)

/-- A climb from the block leads to the last entry that is indented by less than the line. -/
theorem nearest_climb (h : b.Sound) (hlast : b.last ≠ b.block) (htabs : (tabs : Int) < b.previous)
    (levels : Nat) (hlevels : (levels : Int) = b.previous - tabs) :
    ∃ block, b.arena.climb levels b.block = some block ∧
      b.arena.Nearest block b.arena.length tabs := by
  obtain ⟨hbefore, hindent, hbehind⟩ := h.nearest_block hlast
  obtain ⟨top, hclimb, htop, hlevel, habove⟩ := h.toLinked.climb levels hbefore (by omega)
  refine ⟨top, hclimb, by omega, by omega, fun k hk hklength => ?_⟩
  by_cases hkblock : k ≤ b.block
  · have := habove k hk hkblock
    omega
  · have := hbehind k (by omega) hklength
    omega

/-- **A line that fits has a block**: the last entry that is indented by less, whichever way the
builder finds it. -/
theorem blockFor?_of_fits (h : b.Sound) (hfits : Fits policy b.previous tabs) :
    ∃ block, b.blockFor? policy tabs = some block ∧
      b.arena.Nearest block b.arena.length tabs := by
  obtain ⟨hin, hout⟩ := hfits
  rcases h.indentAt_block with ⟨hlast, hindent, hprevious⟩ | ⟨hlast, hindent, hprevious⟩
  · refine ⟨b.block, ?_, ?_⟩
    · rw [blockFor?, if_pos (by omega)]
    · have hnearest := h.nearest_last
      rw [hlast] at hnearest
      rwa [show (tabs : Int) = b.previous + 1 by omega]
  · rw [blockFor?]
    -- The last line may have as many tabs, one less, or more.
    rcases Int.lt_trichotomy tabs b.previous with hless | hsame | hmore
    · obtain ⟨block, hclimb, hnearest⟩ := h.nearest_climb hlast hless
        (b.arena.indentAt b.block - tabs + 1).toNat (by omega)
      refine ⟨block, ?_, hnearest⟩
      have hlevels : ¬ (1 < (b.arena.indentAt b.block - tabs + 1).toNat ∧
          policy = .singleLevel) := by
        rintro ⟨htwo, hsingle⟩
        have := hout hsingle
        omega
      rw [if_neg (by omega), if_neg (by omega), if_pos (by omega), if_neg hlevels]
      exact hclimb
    · refine ⟨b.block, if_pos (by omega), ?_⟩
      rw [hsame]
      exact h.nearest_block hlast
    · refine ⟨b.last, ?_, ?_⟩
      · rw [if_neg (by omega), if_pos (by omega), if_neg hlast]
      · rw [show (tabs : Int) = b.previous + 1 by omega]
        exact h.nearest_last

/-- **A line that does not fit has no block.** -/
theorem blockFor?_of_not_fits (h : b.Sound) (hfits : ¬ Fits policy b.previous tabs) :
    b.blockFor? policy tabs = none := by
  rw [Fits, not_and_or, Classical.not_imp] at hfits
  rw [blockFor?]
  rcases h.indentAt_block with ⟨hlast, hindent, hprevious⟩ | ⟨hlast, hindent, hprevious⟩
  · by_cases htabs : (tabs : Int) = b.arena.indentAt b.block + 2
    · rw [if_neg (by omega), if_pos htabs, if_pos hlast]
    · rw [if_neg (by omega), if_neg htabs, if_neg (by omega)]
  · rcases hfits with hin | ⟨hsingle, hout⟩
    · rw [if_neg (by omega), if_neg (by omega), if_neg (by omega)]
    · have hlevels : 1 < (b.arena.indentAt b.block - tabs + 1).toNat := by omega
      rw [if_neg (by omega), if_neg (by omega), if_pos (by omega), if_pos ⟨hlevels, hsingle⟩]

end Sound

/-! ## Adding lines -/

/-- The builder after a line has become a child of the block. -/
def enter (b : Builder) (block : Nat) (line : Line) : Builder :=
  ⟨b.arena.attach block line, block, b.arena.length⟩

theorem Sound.enter (h : b.Sound) {block : Nat} {line : Line}
    (hblock : b.arena.Nearest block b.arena.length line.indent) : (b.enter block line).Sound where
  toLinked := h.toLinked.attach hblock
  last := (length_attach b.arena block line).symm
  block := .inr (parentAt_attach_length hblock.1 line)

theorem previous_enter {block : Nat} (h : block < b.arena.length) (line : Line) :
    (b.enter block line).previous = line.indent := indentAt_attach_length h line

theorem Sound.add_of_fits (h : b.Sound) {line : Line}
    (hfits : Fits policy b.previous line.indent) :
    ∃ block, b.add policy line = .ok (b.enter block line) ∧
      b.arena.Nearest block b.arena.length line.indent := by
  obtain ⟨block, hblock, hnearest⟩ := h.blockFor?_of_fits hfits
  refine ⟨block, ?_, hnearest⟩
  simp only [add, hblock]
  rfl

theorem Sound.add_of_not_fits (h : b.Sound) {line : Line}
    (hfits : ¬ Fits policy b.previous line.indent) :
    b.add policy line = .error ⟨line.number, line.indent, b.arena.indentAt b.block⟩ := by
  simp only [add, h.blockFor?_of_not_fits hfits]

/-- What adding a line has done, if it succeeds. -/
theorem Sound.add_eq_ok (h : b.Sound) {line : Line} (hadd : b.add policy line = .ok b') :
    Fits policy b.previous line.indent ∧
      ∃ block, b' = b.enter block line ∧ b.arena.Nearest block b.arena.length line.indent := by
  by_cases hfits : Fits policy b.previous line.indent
  · obtain ⟨block, hok, hnearest⟩ := h.add_of_fits hfits
    cases hok.symm.trans hadd
    exact ⟨hfits, block, rfl, hnearest⟩
  · cases (h.add_of_not_fits hfits).symm.trans hadd

theorem addAll_append {lines more : List Line} (h : b.addAll policy lines = .ok b') :
    b.addAll policy (lines ++ more) = b'.addAll policy more := by
  induction lines generalizing b with
  | nil =>
    cases h
    rfl
  | cons line lines ih =>
    simp only [addAll, List.cons_append] at h ⊢
    split at h
    · exact ih h
    · cases h

/-- **A builder stays sound, and its entries are the lines it was given**, in order. -/
theorem Sound.addAll (h : b.Sound) {lines : List Line} (hadd : b.addAll policy lines = .ok b') :
    b'.Sound ∧ b'.arena.map Entry.label = b.arena.map Entry.label ++ lines.map Line.label := by
  induction lines generalizing b with
  | nil =>
    cases hadd
    exact ⟨h, (List.append_nil _).symm⟩
  | cons line lines ih =>
    simp only [Builder.addAll] at hadd
    split at hadd
    · next hok =>
      obtain ⟨-, block, rfl, hnearest⟩ := h.add_eq_ok hok
      obtain ⟨hsound, hlabels⟩ := ih (h.enter hnearest) hadd
      refine ⟨hsound, ?_⟩
      rw [hlabels, Builder.enter, map_label_attach, List.append_assoc]
      rfl
    · cases hadd

/-- **Policies differ in what they refuse, not in what they build.** -/
theorem Sound.addAll_unique (h : b.Sound) {lines : List Line} {policy' : DedentPolicy}
    {c c' : Builder} (hc : b.addAll policy lines = .ok c) (hc' : b.addAll policy' lines = .ok c') :
    c = c' := by
  induction lines generalizing b with
  | nil =>
    cases hc
    cases hc'
    rfl
  | cons line lines ih =>
    simp only [Builder.addAll] at hc hc'
    split at hc
    · next hok =>
      split at hc'
      · next hok' =>
        obtain ⟨-, block, rfl, hnearest⟩ := h.add_eq_ok hok
        obtain ⟨-, block', rfl, hnearest'⟩ := h.add_eq_ok hok'
        cases hnearest.unique hnearest'
        exact ih (h.enter hnearest) hc hc'
      · cases hc'
    · cases hc

end Builder

/-! ## The arena of a source -/

/-- What the arena of a source is like. -/
theorem parse_eq_ok {source : String} (h : Arena.parse policy source = .ok arena) :
    Linked arena ∧
      arena.map Entry.label = Entry.root.label :: (contentLines source).map Line.label := by
  unfold Arena.parse at h
  split at h
  · next b hadd =>
    cases h
    obtain ⟨hsound, hlabels⟩ := Builder.sound_start.addAll hadd
    exact ⟨hsound.toLinked, hlabels⟩
  · cases h

/-- The policies that accept a source build the same arena. -/
theorem parse_unique {source : String} {policy' : DedentPolicy} {arena' : Arena}
    (h : Arena.parse policy source = .ok arena) (h' : Arena.parse policy' source = .ok arena') :
    arena' = arena := by
  unfold Arena.parse at h h'
  split at h
  · next b hadd =>
    split at h'
    · next b' hadd' =>
      cases h
      cases h'
      rw [Builder.sound_start.addAll_unique hadd' hadd]
    · cases h'
  · cases h

end Arena

end Stencil
