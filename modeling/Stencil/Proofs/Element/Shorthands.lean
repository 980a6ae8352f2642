/-
Shorthands: `#id` and `.class` names behind a tag. Written one after the other they are read as they
were written, up to what cannot belong to them (`shorthands_print`). Empty names say nothing, the
last id counts, and the classes keep their order (`foldl_addShorthand_eq`).
-/
import Mathlib.Data.List.Induction
import Stencil.Proofs.Element.Quoting

namespace Stencil.Element

open Text

/-- A marker and a run of keyword characters. -/
def IsShorthand (item : Char × List Char) : Prop :=
  isMarker item.1 = true ∧ ∀ c ∈ item.2, isKeywordChar c = true

/-- Shorthands as they are written. -/
def printShorthands (items : List (Char × List Char)) : List Char :=
  items.flatMap fun item => item.1 :: item.2

/-! ## Reading -/

theorem markedNames_run {run : List Char} (hrun : ∀ c ∈ run, isKeywordChar c = true)
    (cs : List Char) :
    markedNames (run ++ cs) = (run ++ (markedNames cs).1, (markedNames cs).2) := by
  induction run with
  | nil => rfl
  | cons c run ih =>
    rw [List.forall_mem_cons] at hrun
    rw [List.cons_append, markedNames, if_pos hrun.1, ih hrun.2]
    rfl

theorem markedNames_of_head {rest : List Char}
    (h : ∀ c ∈ rest.head?, isKeywordChar c = false ∧ isMarker c = false) :
    markedNames rest = ([], [], rest) := by
  cases rest with
  | nil => rfl
  | cons c rest => simp [markedNames, h c rfl]

theorem isKeywordChar_of_isMarker {c : Char} (h : isMarker c = true) : isKeywordChar c = false := by
  simp only [isMarker, Bool.or_eq_true, beq_iff_eq] at h
  rcases h with rfl | rfl <;> decide

section Reading

variable {items : List (Char × List Char)} {rest : List Char}
  (hitems : ∀ item ∈ items, IsShorthand item)
  (hrest : ∀ c ∈ rest.head?, isKeywordChar c = false ∧ isMarker c = false)

include hitems hrest

theorem markedNames_print : markedNames (printShorthands items ++ rest) = ([], items, rest) := by
  induction items with
  | nil => exact markedNames_of_head hrest
  | cons item items ih =>
    rw [List.forall_mem_cons] at hitems
    obtain ⟨⟨hmarker, hrun⟩, hitems⟩ := hitems
    rw [printShorthands, List.flatMap_cons, ← printShorthands, List.append_assoc, List.cons_append,
      markedNames, isKeywordChar_of_isMarker hmarker, if_neg (by decide), if_pos hmarker,
      markedNames_run hrun, ih hitems]
    simp

/-- Shorthands are read up to what cannot belong to them. -/
theorem shorthands_print : shorthands (printShorthands items ++ rest) = (items, rest) := by
  unfold shorthands
  split
  · rw [markedNames_print hitems hrest]
  · next hhead =>
    cases items with
    | nil => rfl
    | cons item items =>
      rw [List.forall_mem_cons] at hitems
      exact absurd hitems.1.1 hhead

end Reading

/-! ## What they add -/

/-- The runs behind a marker, in order and without the empty ones. -/
def runsOf (marker : Char) (items : List (Char × List Char)) : List (List Char) :=
  (items.filter fun item => item.1 == marker && !item.2.isEmpty).map (·.2)

theorem mem_runsOf {marker : Char} {items : List (Char × List Char)} {run : List Char}
    (h : run ∈ runsOf marker items) : (marker, run) ∈ items ∧ run ≠ [] := by
  obtain ⟨⟨m, r⟩, hitem, rfl⟩ := List.mem_map.mp h
  simp only [List.mem_filter, Bool.and_eq_true, beq_iff_eq, Bool.not_eq_true',
    List.isEmpty_eq_false_iff] at hitem
  obtain ⟨hmem, rfl, hne⟩ := hitem
  exact ⟨hmem, hne⟩

theorem runsOf_concat (marker : Char) (items : List (Char × List Char))
    (item : Char × List Char) :
    runsOf marker (items ++ [item]) =
      runsOf marker items ++ if item.1 = marker ∧ item.2 ≠ [] then [item.2] else [] := by
  unfold runsOf
  rw [List.filter_append, List.map_append]
  congr 1
  split
  · next h => simp [h.1, h.2]
  · next h =>
    rw [not_and_or, not_not] at h
    rcases h with h | h <;> simp [h]

/-- The value that a name gives. -/
def textValue (run : List Char) : AttributeValue := .literal (String.ofList run)

/-- **The last id counts, and the classes are added in order.** -/
theorem foldl_addShorthand_eq {items : List (Char × List Char)}
    (hitems : ∀ item ∈ items, IsShorthand item) (e : Element) :
    items.foldl addShorthand e =
      { e with
        id := ((runsOf '#' items).getLast?.map textValue).or e.id
        classes := e.classes ++ (runsOf '.' items).map String.ofList } := by
  induction items using List.reverseRecOn with
  | nil => simp [runsOf]
  | append_singleton items item ih =>
    rw [List.forall_mem_append, List.forall_mem_singleton] at hitems
    obtain ⟨marker, run⟩ := item
    have hmarker : marker = '#' ∨ marker = '.' := by
      simpa [isMarker] using hitems.2.1
    rw [List.foldl_append, List.foldl_cons, List.foldl_nil, ih hitems.1, runsOf_concat,
      runsOf_concat]
    by_cases hrun : run = []
    · simp [addShorthand, hrun]
    · rcases hmarker with rfl | rfl <;> simp [addShorthand, hrun, textValue]

/-! ## Classes alone -/

/-- Classes as shorthands. -/
def classItems (classes : List String) : List (Char × List Char) :=
  classes.map fun name => ('.', name.toList)

section Classes

variable {classes : List String}
  (h : ∀ name ∈ classes, name ≠ "" ∧ name.toList.all isKeywordChar = true)

include h

theorem isShorthand_classItems : ∀ item ∈ classItems classes, IsShorthand item := by
  intro item hitem
  obtain ⟨name, hname, rfl⟩ := List.mem_map.mp hitem
  exact ⟨rfl, List.all_eq_true.mp (h name hname).2⟩

theorem foldl_addShorthand_classItems (e : Element) :
    (classItems classes).foldl addShorthand e = { e with classes := e.classes ++ classes } := by
  have hids : runsOf '#' (classItems classes) = [] := by simp [runsOf, classItems]
  have hkeep : ∀ name ∈ classes, (!name.toList.isEmpty) = true := by
    intro name hname
    simpa using (h name hname).1
  have hruns : (runsOf '.' (classItems classes)).map String.ofList = classes := by
    simp [runsOf, classItems, List.filter_map, Function.comp_def, List.filter_eq_self.mpr hkeep]
  rw [foldl_addShorthand_eq (isShorthand_classItems h), hids, hruns]
  rfl

end Classes

end Stencil.Element
