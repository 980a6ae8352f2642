/-
Trimmed texts, which neither start nor end with a blank: trimming them, also with blanks around
them, gives them back. Trimming keeps nothing but characters of the text, and what is left of it is
trimmed. No character of a name is blank.
-/
import Stencil.Proofs.Text.Runs

namespace Stencil.Text

variable {cs ds : List Char}

/-- A text without blanks at either end. -/
def Trimmed (cs : List Char) : Prop := trim cs = cs

instance (cs : List Char) : Decidable (Trimmed cs) := inferInstanceAs (Decidable (_ = cs))

theorem allBlank_of_suffix (h : cs <:+ ds) (hblank : allBlank ds = true) : allBlank cs = true :=
  List.all_eq_true.mpr fun c hc => List.all_eq_true.mp hblank c (h.subset hc)

theorem trimStart_of_head (h : ∀ c ∈ cs.head?, isBlank c = false) : trimStart cs = cs := by
  cases cs with
  | nil => rfl
  | cons c cs => simp [trimStart, h c rfl]

theorem trimEnd_of_getLast (h : ∀ c ∈ cs.getLast?, isBlank c = false) : trimEnd cs = cs := by
  rw [← List.head?_reverse] at h
  have := trimStart_of_head h
  rw [trimStart] at this
  rw [trimEnd, this, List.reverse_reverse]

theorem length_trimEnd_le (cs : List Char) : (trimEnd cs).length ≤ cs.length := by
  rw [trimEnd, List.length_reverse]
  simpa using length_dropWhile_le isBlank cs.reverse

theorem Trimmed.trim_eq (h : Trimmed cs) : trim cs = cs := h

theorem Trimmed.trimStart_eq (h : Trimmed cs) : trimStart cs = cs := by
  have hlength : cs.length ≤ (trimStart cs).length := by
    have := length_trimEnd_le (trimStart cs)
    rwa [← trim, h] at this
  exact (List.dropWhile_suffix isBlank).eq_of_length
    (Nat.le_antisymm (length_trimStart_le cs) hlength)

theorem Trimmed.trimEnd_eq (h : Trimmed cs) : trimEnd cs = cs := by
  have := h
  rwa [Trimmed, trim, h.trimStart_eq] at this

theorem Trimmed.head (h : Trimmed cs) : ∀ c ∈ cs.head?, isBlank c = false := by
  rw [← h.trimStart_eq, trimStart]
  exact head?_dropWhile_of_mem

theorem Trimmed.getLast (h : Trimmed cs) : ∀ c ∈ cs.getLast?, isBlank c = false := by
  rw [← h.trimEnd_eq, trimEnd, List.getLast?_reverse]
  exact head?_dropWhile_of_mem

theorem trimmed_of (hhead : ∀ c ∈ cs.head?, isBlank c = false)
    (hlast : ∀ c ∈ cs.getLast?, isBlank c = false) : Trimmed cs := by
  rw [Trimmed, trim, trimStart_of_head hhead, trimEnd_of_getLast hlast]

theorem Trimmed.head_append (h : Trimmed cs) (hne : cs ≠ []) (ds : List Char) :
    ∀ c ∈ (cs ++ ds).head?, isBlank c = false := by
  obtain ⟨c, cs, rfl⟩ := List.exists_cons_of_ne_nil hne
  exact h.head

theorem Trimmed.trimStart_append (h : Trimmed cs) (hne : cs ≠ []) (ds : List Char) :
    trimStart (cs ++ ds) = cs ++ ds :=
  trimStart_of_head (h.head_append hne ds)

theorem Trimmed.allBlank_eq (h : Trimmed cs) (hne : cs ≠ []) : allBlank cs = false := by
  obtain ⟨c, cs, rfl⟩ := List.exists_cons_of_ne_nil hne
  rw [allBlank, List.all_cons, h.head c rfl, Bool.false_and]

/-! ## What trimming leaves -/

theorem trimStart_subset (cs : List Char) : trimStart cs ⊆ cs :=
  (List.dropWhile_suffix isBlank).subset

theorem trimEnd_initial (cs : List Char) : trimEnd cs <+: cs := by
  rw [trimEnd, ← List.reverse_suffix, List.reverse_reverse]
  exact List.dropWhile_suffix isBlank

theorem trim_subset (cs : List Char) : trim cs ⊆ cs := fun _ hc =>
  trimStart_subset cs ((trimEnd_initial _).subset hc)

theorem mem_head?_of_initial {cs ds : List Char} (h : cs <+: ds) :
    ∀ c ∈ cs.head?, c ∈ ds.head? := by
  obtain ⟨rest, rfl⟩ := h
  cases cs with
  | nil => simp
  | cons c cs => simp

theorem getLast_trimEnd (cs : List Char) : ∀ c ∈ (trimEnd cs).getLast?, isBlank c = false := by
  rw [trimEnd, List.getLast?_reverse]
  exact head?_dropWhile_of_mem

theorem trimmed_trim (cs : List Char) : Trimmed (trim cs) := by
  refine trimmed_of (fun c hc => ?_) (getLast_trimEnd (trimStart cs))
  exact head?_dropWhile_of_mem c (mem_head?_of_initial (trimEnd_initial (trimStart cs)) c hc)

/-- A text that is not all blank has something left. -/
theorem trim_ne_nil (h : allBlank cs = false) : trim cs ≠ [] := by
  intro hnil
  have hend : (trimStart cs).all isBlank = true := by
    rw [trim, trimEnd, List.reverse_eq_nil_iff, List.dropWhile_eq_nil_iff] at hnil
    exact List.all_eq_true.mpr fun c hc => hnil c (List.mem_reverse.mpr hc)
  have hstart : trimStart cs = [] := by
    by_contra hne
    obtain ⟨c, ds, hds⟩ := List.exists_cons_of_ne_nil hne
    have hc : isBlank c = false := head?_dropWhile_of_mem c (by rw [← trimStart, hds]; rfl)
    simp [hds, hc] at hend
  rw [trimStart, List.dropWhile_eq_nil_iff] at hstart
  rw [allBlank, List.all_eq_true.mpr hstart] at h
  cases h

/-- A run of characters that are no blanks is not touched by trimming the text behind it. -/
theorem trimEnd_append {run : List Char} (hrun : ∀ c ∈ run, isBlank c = false) (rest : List Char) :
    trimEnd (run ++ rest) = run ++ trimEnd rest := by
  have hdrop : run.reverse.dropWhile isBlank = run.reverse := by
    cases hr : run.reverse with
    | nil => rfl
    | cons c cs =>
      have hc : c ∈ run := List.mem_reverse.mp (by simp [hr])
      simp [hrun c hc]
  rw [trimEnd, List.reverse_append, List.dropWhile_append]
  by_cases hblank : (rest.reverse.dropWhile isBlank).isEmpty = true
  · rw [if_pos hblank, hdrop, trimEnd, List.isEmpty_iff.mp hblank]
    simp
  · rw [if_neg hblank, List.reverse_append, List.reverse_reverse, trimEnd]

theorem takeWhile_trimEnd {p : Char → Bool} (hp : ∀ c, p c = true → isBlank c = false)
    (cs : List Char) : (trimEnd cs).takeWhile p = cs.takeWhile p ∧
      (trimEnd cs).dropWhile p = trimEnd (cs.dropWhile p) := by
  have hrun : ∀ c ∈ cs.takeWhile p, p c = true := fun c hc => List.mem_takeWhile_imp hc
  have htrim := trimEnd_append (fun c hc => hp c (hrun c hc)) (cs.dropWhile p)
  rw [List.takeWhile_append_dropWhile] at htrim
  have hstop : ∀ c ∈ (trimEnd (cs.dropWhile p)).head?, p c = false := fun c hc =>
    head?_dropWhile_of_mem c (mem_head?_of_initial (trimEnd_initial _) c hc)
  rw [htrim, takeWhile_run hrun hstop, dropWhile_run hrun hstop]
  exact ⟨rfl, rfl⟩

/-! ## Trimming twice -/

theorem trimStart_trimStart (cs : List Char) : trimStart (trimStart cs) = trimStart cs :=
  trimStart_of_head head?_dropWhile_of_mem

theorem trimEnd_trimEnd (cs : List Char) : trimEnd (trimEnd cs) = trimEnd cs :=
  trimEnd_of_getLast (getLast_trimEnd cs)

theorem trim_trimStart (cs : List Char) : trim (trimStart cs) = trim cs := by
  rw [trim, trimStart_trimStart, trim]

theorem trimEnd_cons_of_isBlank {c : Char} (hc : isBlank c = true) (cs : List Char) :
    trimEnd (c :: cs) = if trimEnd cs = [] then [] else c :: trimEnd cs := by
  rw [trimEnd, List.reverse_cons, List.dropWhile_append, trimEnd]
  by_cases hblank : cs.reverse.dropWhile isBlank = []
  · simp [hblank, hc]
  · simp [hblank]

/-- The blanks at the two ends may be dropped in either order. -/
theorem trimStart_trimEnd (cs : List Char) : trimStart (trimEnd cs) = trim cs := by
  induction cs with
  | nil => rfl
  | cons c cs ih =>
    cases hc : isBlank c with
    | true =>
      have hstart : ∀ ds : List Char, trimStart (c :: ds) = trimStart ds := fun ds => by
        rw [trimStart, List.dropWhile_cons_of_pos hc, trimStart]
      rw [trim, hstart, ← trim, ← ih, trimEnd_cons_of_isBlank hc]
      split
      · next hnil => rw [hnil]
      · exact hstart _
    | false =>
      have hstart : ∀ ds : List Char, trimStart (c :: ds) = c :: ds := fun ds =>
        trimStart_of_head (by rintro d ⟨⟩; exact hc)
      have hrun : ∀ d ∈ [c], isBlank d = false := by simpa using hc
      have hend : trimEnd (c :: cs) = c :: trimEnd cs := trimEnd_append hrun cs
      rw [trim, hstart, hend, hstart]

theorem trim_trimEnd (cs : List Char) : trim (trimEnd cs) = trim cs := by
  rw [trim, trimStart_trimEnd, trim, trimEnd_trimEnd]

/-! ## Blanks around a text -/

/-- The text with blanks before and after it. -/
def Padded (cs padded : List Char) : Prop :=
  ∃ lead trail, allBlank lead = true ∧ allBlank trail = true ∧ padded = lead ++ (cs ++ trail)

theorem trimStart_append_of_blank {lead : List Char} (h : allBlank lead = true) (cs : List Char) :
    trimStart (lead ++ cs) = trimStart cs :=
  List.dropWhile_append_of_pos (List.all_eq_true.mp h)

theorem trimEnd_append_of_blank {trail : List Char} (h : allBlank trail = true) (cs : List Char) :
    trimEnd (cs ++ trail) = trimEnd cs := by
  have hblank : ∀ c ∈ trail.reverse, isBlank c = true := fun c hc =>
    List.all_eq_true.mp h c (List.mem_reverse.mp hc)
  rw [trimEnd, List.reverse_append, List.dropWhile_append_of_pos hblank, trimEnd]

theorem Padded.trim_eq (h : Padded cs ds) : trim ds = trim cs := by
  obtain ⟨lead, trail, hlead, htrail, rfl⟩ := h
  rw [trim, trimStart_append_of_blank hlead, ← trim, ← trimStart_trimEnd,
    trimEnd_append_of_blank htrail, trimStart_trimEnd]

/-! ## Characters of names -/

/-- The blank characters by number. -/
def blankCodes : List Nat :=
  [0x20, 0x9, 0xA, 0xB, 0xC, 0xD, 0x85, 0xA0, 0x1680, 0x2000, 0x2001, 0x2002, 0x2003, 0x2004,
    0x2005, 0x2006, 0x2007, 0x2008, 0x2009, 0x200A, 0x2028, 0x2029, 0x202F, 0x205F, 0x3000]

theorem toNat_mem_blankCodes {c : Char} (h : isBlank c = true) : c.toNat ∈ blankCodes := by
  simp only [isBlank, Bool.or_eq_true, Bool.and_eq_true, beq_iff_eq, decide_eq_true_eq] at h
  simp only [blankCodes, List.mem_cons]
  omega

/-- A class of characters that no blank belongs to. -/
theorem isBlank_eq_false_of_class {p : Char → Bool}
    (hp : blankCodes.all (fun n => !p (Char.ofNat n)) = true) {c : Char} (hc : p c = true) :
    isBlank c = false := by
  by_contra hblank
  have := List.all_eq_true.mp hp c.toNat (toNat_mem_blankCodes (by simpa using hblank))
  rw [Char.ofNat_toNat, hc] at this
  cases this

theorem isBlank_of_isAlphanumeric {c : Char} (h : isAlphanumeric c = true) : isBlank c = false :=
  isBlank_eq_false_of_class (by decide +kernel) h

theorem isBlank_of_isAttributeChar {c : Char} (h : isAttributeChar c = true) :
    isBlank c = false := by
  simp only [isAttributeChar, Bool.or_eq_true, beq_iff_eq] at h
  rcases h with ((h | rfl) | rfl) | rfl
  · exact isBlank_of_isAlphanumeric h
  · decide
  · decide
  · decide

theorem isBlank_of_isKeywordChar {c : Char} (h : isKeywordChar c = true) : isBlank c = false := by
  simp only [isKeywordChar, Bool.or_eq_true, beq_iff_eq] at h
  rcases h with h | rfl
  · exact isBlank_of_isAlphanumeric h
  · decide

theorem isBlank_of_isIdentifierChar {c : Char} (h : isIdentifierChar c = true) :
    isBlank c = false :=
  isBlank_eq_false_of_class (by decide +kernel) h

end Stencil.Text
