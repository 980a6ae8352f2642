/-
The arena of a source as a tree. A walk that follows the children keeps the places that are still
to be visited on a stack. When the places before `id` have been visited, the stack holds those from
`id` on whose parent has been visited (`pending`). The first of them is `id`, since parents stand
before their children, and the children of `id` stand before all others that are pending: one
behind a later sibling would have an entry between it and its parent that is indented less
(`pending_succ`). So the walk meets the places in order.

`treeOf_parse` puts this together with what the builder keeps true of the links.
-/
import Stencil.Proofs.Outline.Acceptance

namespace Stencil

/-- The line that an entry stands for, behind its tabs. -/
def Entry.chars (e : Entry) : List Char := List.replicate e.indent.toNat '\t' ++ e.text.toList

namespace Arena

/-- A walk from the places on a stack: the topmost entry is visited, and its children are put on
the stack. -/
inductive Visits (arena : Arena) : List Nat → List Nat → Prop
  | done : Visits arena [] []
  | visit {id : Nat} {stack visited : List Nat} : id < arena.length →
      Visits arena (arena.childrenAt id ++ stack) visited →
        Visits arena (id :: stack) (id :: visited)

/-- There is only one walk. -/
theorem Visits.unique {arena : Arena} {stack visited others : List Nat}
    (h : Visits arena stack visited) (h' : Visits arena stack others) : visited = others := by
  induction h generalizing others with
  | done =>
    cases h'
    rfl
  | visit _ _ ih =>
    cases h' with
    | visit _ h' => rw [ih h']

/-! ## Places that are still to be visited -/

/-- The places from `id` on whose parent stands before `id`. -/
def pending (arena : Arena) (id : Nat) : List Nat :=
  (List.range' id (arena.length - id)).filter fun k => (arena.parentAt k).any (· < id)

variable {arena : Arena} {id : Nat}

namespace Linked

/-- The children of an entry stand before whatever is left of its siblings and its parents'. -/
theorem not_child_behind (h : Linked arena) {k child parent : Nat} (hk : id < k)
    (hparent : arena.parentAt k = some parent) (hbefore : parent < id) (hbehind : k < child) :
    arena.parentAt child ≠ some id := by
  intro hchild
  obtain ⟨-, -, hbetween⟩ := h.nearest_of_parentAt hparent
  obtain ⟨-, hindent, hbetween'⟩ := h.nearest_of_parentAt hchild
  have := hbetween id hbefore hk
  have := hbetween' k hk hbehind
  omega

/-- What is pending from `id` on, `id` itself apart. -/
theorem pending_eq_cons (h : Linked arena) (hpos : 0 < id) (hid : id < arena.length) :
    arena.pending id = id :: (List.range' (id + 1) (arena.length - (id + 1))).filter fun k =>
      (arena.parentAt k).any (· < id) := by
  obtain ⟨parent, hparent, hbefore, -⟩ := h.parents id hpos hid
  have hlength : arena.length - id = arena.length - (id + 1) + 1 := by omega
  rw [pending, hlength, List.range'_succ, List.filter_cons_of_pos]
  simpa [hparent] using hbefore

/-- The children of an entry all stand behind it. -/
theorem childIds_eq (h : Linked arena) (hid : id < arena.length) :
    arena.childIds id = (List.range' (id + 1) (arena.length - (id + 1))).filter fun k =>
      arena.parentAt k = some id := by
  have hrange : List.range arena.length =
      List.range' 0 (id + 1) ++ List.range' (id + 1) (arena.length - (id + 1)) := by
    have happend := List.range'_append_1 (s := 0) (m := id + 1) (n := arena.length - (id + 1))
    rw [Nat.zero_add, Nat.add_sub_cancel' hid] at happend
    rw [happend, List.range_eq_range']
  have hnone : (List.range' 0 (id + 1)).filter (fun k => arena.parentAt k = some id) = [] := by
    refine List.filter_eq_nil_iff.mpr fun k hk hparent => ?_
    have hbefore := (h.nearest_of_parentAt (of_decide_eq_true hparent)).1
    rw [List.mem_range'_1] at hk
    omega
  rw [childIds, hrange, List.filter_append, hnone, List.nil_append]

/-- **The children of an entry are the first to be visited after it.** -/
theorem pending_succ (h : Linked arena) (hid : id < arena.length) :
    arena.pending (id + 1) = arena.childIds id ++
      (List.range' (id + 1) (arena.length - (id + 1))).filter fun k =>
        (arena.parentAt k).any (· < id) := by
  have hsplit : ∀ k, (arena.parentAt k).any (· < id + 1) =
      (decide (arena.parentAt k = some id) || (arena.parentAt k).any (· < id)) := by
    intro k
    cases arena.parentAt k with
    | none => rfl
    | some parent =>
      simp only [Option.any_some, Option.some.injEq]
      rw [← Bool.decide_or, decide_eq_decide]
      omega
  rw [h.childIds_eq hid, ← Lists.filter_or, pending]
  · exact List.filter_congr fun k _ => hsplit k
  · refine (List.pairwise_lt_range' ..).imp_of_mem fun {k child} hk _ hlt hparent hchild => ?_
    rw [List.mem_range'_1] at hk
    cases hother : arena.parentAt k with
    | none =>
      rw [hother] at hparent
      cases hparent
    | some parent =>
      rw [hother] at hparent
      exact h.not_child_behind (by omega) hother (of_decide_eq_true hparent) hlt
        (of_decide_eq_true hchild)
  · intro k _ hparent hchild
    rw [of_decide_eq_true hchild] at hparent
    simp at hparent

/-- **The walk meets the places in order.** -/
theorem visits_pending (h : Linked arena) : ∀ (count id : Nat), 0 < id →
    id + count = arena.length → Visits arena (arena.pending id) (List.range' id count)
  | 0, id, _, hlength => by
    rw [pending, show arena.length - id = 0 by omega]
    exact .done
  | count + 1, id, hpos, hlength => by
    have hid : id < arena.length := by omega
    rw [h.pending_eq_cons hpos hid, List.range'_succ]
    refine .visit hid ?_
    rw [h.children id hid, ← h.pending_succ hid]
    exact h.visits_pending count (id + 1) (by omega) (by omega)

/-- Below the whole source its children are pending. -/
theorem childrenAt_root (h : Linked arena) : arena.childrenAt 0 = arena.pending 1 := by
  have hnone : (List.range' 1 (arena.length - 1)).filter
      (fun k => (arena.parentAt k).any (· < 0)) = [] := by
    refine List.filter_eq_nil_iff.mpr fun k _ hparent => ?_
    cases hk : arena.parentAt k with
    | none => simp [hk] at hparent
    | some parent => simp [hk] at hparent
  rw [h.children 0 h.nonempty, h.pending_succ h.nonempty, hnone, List.append_nil]

theorem visits_iff (h : Linked arena) (visited : List Nat) :
    Visits arena [0] visited ↔ visited = List.range arena.length := by
  have hlength : arena.length = arena.length - 1 + 1 := by
    have := h.nonempty
    omega
  have hwalk : Visits arena [0] (List.range arena.length) := by
    rw [List.range_eq_range', hlength, List.range'_succ]
    refine .visit h.nonempty ?_
    rw [h.childrenAt_root, List.append_nil]
    exact h.visits_pending _ 1 Nat.one_pos (by omega)
  constructor
  · exact fun hvisits => hvisits.unique hwalk
  · intro hvisited
    rw [hvisited]
    exact hwalk

end Linked

/-! ## The tree of a source -/

/-- The arena is the tree of a source. -/
structure TreeOf (source : String) (arena : Arena) : Prop extends Linked arena where
  /-- The whole source comes first and has no parent. -/
  first : ∃ children rest, arena = ⟨"", -1, 0, none, children⟩ :: rest
  /-- One entry for each non-blank line follows. -/
  size : arena.length = (tabCounts (Text.lines source.toList)).length + 1
  /-- The entry of a non-blank line stands behind those of the non-blank lines above it, and says
  its number, its leading tabs and the text behind them. -/
  entries : ∀ before cs after, Text.lines source.toList = before ++ cs :: after →
    Text.allBlank cs = false → ∃ e, arena[(tabCounts before).length + 1]? = some e ∧
      e.line = before.length + 1 ∧ e.indent = leadingTabs cs ∧ e.chars = cs
  /-- The walk from the root meets the entries in order. -/
  preorder : ∀ visited, Visits arena [0] visited ↔ visited = List.range arena.length
  /-- Written down as they are met, the entries below the root are the non-blank lines. -/
  written : ∀ visited, Visits arena [0] (0 :: visited) →
    visited.filterMap (fun id => arena[id]?.map Entry.chars) = nonBlankLines source

/-- An entry that says what a line says is written as the line. -/
theorem chars_of_label {e : Entry} {line : Line} (h : e.label = line.label) :
    e.chars = line.chars := by
  obtain ⟨htext, hindent, -⟩ := label_eq_iff.mp h
  rw [Entry.chars, Line.chars, htext, hindent, Int.toNat_natCast]

theorem length_of_labels {source : String} {es : List Entry}
    (h : es.map Entry.label = (contentLines source).map Line.label) :
    es.length = (tabCounts (Text.lines source.toList)).length := by
  rw [← map_indent_contentFrom 1, ← contentLines_eq, List.length_map,
    ← List.length_map Line.label, ← h, List.length_map]

/-- The entry of a line is found by the non-blank lines above it. -/
theorem exists_entry {source : String} {es : List Entry}
    (h : es.map Entry.label = (contentLines source).map Line.label)
    {before after : List (List Char)} {cs : List Char}
    (hlines : Text.lines source.toList = before ++ cs :: after)
    (hblank : Text.allBlank cs = false) : ∃ e, es[(tabCounts before).length]? = some e ∧
      e.line = before.length + 1 ∧ e.indent = leadingTabs cs ∧ e.chars = cs := by
  have hlength : (tabCounts before).length = (contentFrom 1 before).length := by
    rw [← map_indent_contentFrom 1, List.length_map]
  have hline : (es.map Entry.label)[(tabCounts before).length]? =
      some (Line.ofChars (1 + before.length) cs).label := by
    rw [h, contentLines_eq, hlines, contentFrom_append, contentFrom_cons hblank, hlength]
    simp
  rw [List.getElem?_map] at hline
  obtain ⟨e, he, hlabel⟩ := Option.map_eq_some_iff.mp hline
  have hchars := chars_of_label hlabel
  rw [chars_ofChars] at hchars
  obtain ⟨-, hindent, hnumber⟩ := label_eq_iff.mp hlabel
  exact ⟨e, he, hnumber.trans (Nat.add_comm 1 _), hindent, hchars⟩

theorem filterMap_getElem? (es : List Entry) :
    (List.range es.length).filterMap (fun id => es[id]?.map Entry.chars) = es.map Entry.chars := by
  induction es with
  | nil => rfl
  | cons e es ih =>
    simp [List.range_succ_eq_map, List.filterMap_map, ih]

/-- The entry for the whole source, whatever its children. -/
theorem Linked.first (h : Linked arena) {lines : List (String × Int × Nat)}
    (hlabels : arena.map Entry.label = Entry.root.label :: lines) :
    ∃ children rest, arena = ⟨"", -1, 0, none, children⟩ :: rest ∧
      rest.map Entry.label = lines := by
  cases arena with
  | nil => cases hlabels
  | cons e rest =>
    obtain ⟨text, indent, line, parent, children⟩ := e
    obtain ⟨hlabel, hrest⟩ := List.cons.inj hlabels
    obtain ⟨rfl, rfl, rfl⟩ : text = "" ∧ indent = -1 ∧ line = 0 := by
      simpa [Entry.label, Entry.root] using hlabel
    obtain rfl : parent = none := h.orphan
    exact ⟨children, rest, rfl, hrest⟩

/-- **The arena of a source is the tree of its non-blank lines**, and no policy builds another
one. -/
theorem treeOf_parse {policy : DedentPolicy} {source : String}
    (h : Arena.parse policy source = .ok arena) :
    TreeOf source arena ∧
      ∀ policy' arena', Arena.parse policy' source = .ok arena' → arena' = arena := by
  obtain ⟨hlinked, hlabels⟩ := parse_eq_ok h
  obtain ⟨children, rest, hfirst, hrest⟩ := hlinked.first hlabels
  refine ⟨⟨hlinked, ⟨children, rest, hfirst⟩, ?_, fun before cs after hlines hblank => ?_,
    hlinked.visits_iff, fun visited hvisits => ?_⟩, fun _ _ => parse_unique h⟩
  · rw [hfirst, List.length_cons, length_of_labels hrest]
  · rw [hfirst, List.getElem?_cons_succ]
    exact exists_entry hrest hlines hblank
  · have hwritten := filterMap_getElem? arena
    rw [← (hlinked.visits_iff _).mp hvisits, hfirst] at hwritten
    rw [hfirst, ← map_chars_contentLines, ← map_eq_of_labels (fun _ _ => chars_of_label) hrest]
    exact (List.cons.inj hwritten).2

/-- A source with a blank line, and with a line that closes two levels. -/
def stairsSource : String := "a\n\tb\n\t\tc\n\n\td\n\t\te\nf"

def stairs : Arena :=
  [⟨"", -1, 0, none, [1, 6]⟩, ⟨"a", 0, 1, some 0, [2, 4]⟩, ⟨"b", 1, 2, some 1, [3]⟩,
    ⟨"c", 2, 3, some 2, []⟩, ⟨"d", 1, 5, some 1, [5]⟩, ⟨"e", 2, 6, some 4, []⟩,
    ⟨"f", 0, 7, some 0, []⟩]

theorem treeOf_parse_stairs : Arena.parse .anyLevel stairsSource = .ok stairs ∧
    TreeOf stairsSource stairs ∧
      ∀ policy' arena', Arena.parse policy' stairsSource = .ok arena' → arena' = stairs := by
  have hparse : Arena.parse .anyLevel stairsSource = .ok stairs := rfl
  exact ⟨hparse, treeOf_parse hparse⟩

end Arena

end Stencil
