/-
What lowering reports, line by line. The diagnostics of some lines are warnings, with at most one
error behind them; each stands at one of the lines, and they come in the order of the lines
(`Reports`). One step after another keeps this when no line of the second step stands above one of
the first (`Reports.bind`), and lowering goes through the lines in order (`reports_lowerNode`). So
sorting the diagnostics of an outline that was read changes nothing (`lower_diagnostics`).

A top-level line that is no comment gives one component or one error, never both.
-/
import Stencil.Compile
import Stencil.Proofs.Component.Lowered
import Stencil.Proofs.Outline.Reading

namespace Stencil

theorem Warning.isError_atLine (w : Warning) (number : Nat) :
    (w.atLine number).isError = false := by
  cases w <;> rfl

theorem Fault.isError_atLine (f : Fault) (number : Nat) : (f.atLine number).isError = true := by
  cases f <;> rfl

namespace Lowered

variable {α β : Type} {x : Lowered α} {f : α → Lowered β}

theorem bind_of_ok {a : α} (h : x.result = .ok a) :
    x >>= f = ⟨x.warnings ++ (f a).warnings, (f a).result⟩ := by
  change Lowered.bind x f = _
  simp only [Lowered.bind, h]

theorem bind_of_error {d : Diagnostic} (h : x.result = .error d) :
    x >>= f = ⟨x.warnings, .error d⟩ := by
  change Lowered.bind x f = _
  simp only [Lowered.bind, h]

theorem diagnostics_of_ok {a : α} (h : x.result = .ok a) : x.diagnostics = x.warnings := by
  simp only [diagnostics, h]

theorem diagnostics_of_error {d : Diagnostic} (h : x.result = .error d) :
    x.diagnostics = x.warnings ++ [d] := by
  simp only [diagnostics, h]

theorem diagnostics_bind_of_ok {a : α} (h : x.result = .ok a) :
    (x >>= f).diagnostics = x.warnings ++ (f a).diagnostics := by
  rw [bind_of_ok h]
  unfold diagnostics
  cases (f a).result <;> simp

theorem diagnostics_bind_of_error {d : Diagnostic} (h : x.result = .error d) :
    (x >>= f).diagnostics = x.diagnostics := by
  rw [bind_of_error h, diagnostics_of_error h]
  rfl

/-- Lowering reports about these lines and no others, in their order, and only the last report
can be an error. -/
structure Reports (lines : List Line) (x : Lowered α) : Prop where
  warning : ∀ d ∈ x.warnings, d.isError = false
  error : ∀ d, x.result = .error d → d.isError = true
  located : ∀ d ∈ x.diagnostics, ∃ line ∈ lines, line.number = d.line
  ordered : x.diagnostics.Pairwise fun a b => a.line ≤ b.line

theorem Reports.mono {lines more : List Line} (h : Reports lines x) (hsub : lines ⊆ more) :
    Reports more x where
  warning := h.warning
  error := h.error
  located d hd :=
    have ⟨line, hline, hnumber⟩ := h.located d hd
    ⟨line, hsub hline, hnumber⟩
  ordered := h.ordered

theorem reports_ok (lines : List Line) (a : α) : Reports lines (Lowered.ok a) where
  warning := nofun
  error := nofun
  located := nofun
  ordered := .nil

theorem reports_fail (line : Line) (f : Fault) :
    Reports [line] (Lowered.fail line f : Lowered α) where
  warning := nofun
  error := by
    rintro d ⟨⟩
    exact f.isError_atLine line.number
  located d hd := ⟨line, List.mem_singleton_self line, by rw [List.mem_singleton.mp hd]; rfl⟩
  ordered := List.pairwise_singleton _ _

theorem reports_read (line : Line) (x : Except Fault α) : Reports [line] (Lowered.read line x) := by
  cases x with
  | ok a => exact reports_ok [line] a
  | error f => exact reports_fail line f

theorem reports_warn (line : Line) (ws : List Warning) : Reports [line] (Lowered.warn line ws) where
  warning d hd := by
    obtain ⟨w, -, rfl⟩ := List.mem_map.mp hd
    exact w.isError_atLine line.number
  error := nofun
  located d hd := by
    obtain ⟨w, -, rfl⟩ := List.mem_map.mp hd
    exact ⟨line, List.mem_singleton_self line, rfl⟩
  ordered := by
    refine List.pairwise_map.mpr ?_
    exact List.pairwise_of_forall fun _ _ => Nat.le_refl line.number

/-- Reports about lines and then about lines that stand no higher. -/
theorem Reports.bind {lines more : List Line} (hx : Reports lines x)
    (hf : ∀ a, x.result = .ok a → Reports more (f a))
    (hle : ∀ l ∈ lines, ∀ m ∈ more, l.number ≤ m.number) : Reports (lines ++ more) (x >>= f) := by
  cases hresult : x.result with
  | error d =>
    have hdiagnostics := diagnostics_bind_of_error (f := f) hresult
    refine ⟨?_, ?_, ?_, ?_⟩
    · rw [bind_of_error hresult]
      exact hx.warning
    · rw [bind_of_error hresult]
      rintro e ⟨⟩
      exact hx.error d hresult
    · rw [hdiagnostics]
      exact (hx.mono (List.subset_append_left lines more)).located
    · rw [hdiagnostics]
      exact hx.ordered
  | ok a =>
    have hfa := hf a hresult
    have hwarnings : x.diagnostics = x.warnings := diagnostics_of_ok hresult
    have hlocated := hx.located
    have hordered := hx.ordered
    rw [hwarnings] at hlocated hordered
    have hdiagnostics := diagnostics_bind_of_ok (f := f) hresult
    refine ⟨?_, ?_, ?_, ?_⟩
    · rw [bind_of_ok hresult]
      intro d hd
      rcases List.mem_append.mp hd with hd | hd
      · exact hx.warning d hd
      · exact hfa.warning d hd
    · rw [bind_of_ok hresult]
      exact hfa.error
    · rw [hdiagnostics]
      intro d hd
      rcases List.mem_append.mp hd with hd | hd
      · obtain ⟨line, hline, hnumber⟩ := hlocated d hd
        exact ⟨line, List.mem_append_left more hline, hnumber⟩
      · obtain ⟨line, hline, hnumber⟩ := hfa.located d hd
        exact ⟨line, List.mem_append_right lines hline, hnumber⟩
    · rw [hdiagnostics, List.pairwise_append]
      refine ⟨hordered, hfa.ordered, fun d hd e he => ?_⟩
      obtain ⟨l, hl, hd⟩ := hlocated d hd
      obtain ⟨m, hm, he⟩ := hfa.located e he
      rw [← hd, ← he]
      exact hle l hl m hm

theorem Reports.bind_ok {lines : List Line} (hx : Reports lines x) (g : α → β) :
    Reports lines (x >>= fun a => Lowered.ok (g a)) := by
  have := hx.bind (f := fun a => Lowered.ok (g a)) (fun a _ => reports_ok [] (g a)) nofun
  rwa [List.append_nil] at this

/-- Reports about a line and then about the lines below it. -/
theorem Reports.cons {line : Line} {lines : List Line} (hx : Reports [line] x)
    (hf : ∀ a, x.result = .ok a → Reports lines (f a)) (h : Ascending (line :: lines)) :
    Reports (line :: lines) (x >>= f) := by
  refine hx.bind hf ?_
  intro l hl m hm
  rw [List.mem_singleton.mp hl]
  exact Nat.le_of_lt ((List.pairwise_cons.mp h).1 m hm)

end Lowered

/-! ## Lines in a component's body -/

open Lowered

mutual

/-- **A line and the lines below it are reported about in order.** -/
theorem reports_lowerNode (options : Options) : ∀ n : Node, Ascending n.lines →
    Reports n.lines (lowerNode options n)
  | ⟨line, children⟩, h => by
    have hchildren : Reports (Outline.lines children) (lowerNodes options children) :=
      reports_lowerNodes options children (List.pairwise_cons.mp h).2
    have hself : [line] ⊆ line :: Outline.lines children := by simp
    unfold lowerNode
    rw [Node.lines]
    split
    · exact reports_ok _ _
    · exact (reports_fail line _).mono hself
    · exact (hchildren.bind_ok _).mono (List.subset_cons_self _ _)
    · exact (reports_read line _).cons (fun _ _ => hchildren.bind_ok _) h
    · exact ((reports_read line _).bind_ok _).mono hself
    · exact (reports_read line _).cons (fun _ _ => hchildren.bind_ok _) h
    · -- The call is read before its lines are found to be ignored, both at the same line.
      refine ((reports_read line _).bind (fun i _ => (reports_warn line _).bind_ok fun _ => [i])
        ?_).mono (by simp)
      simp

theorem reports_lowerNodes (options : Options) : ∀ ns : List Node, Ascending (Outline.lines ns) →
    Reports (Outline.lines ns) (lowerNodes options ns)
  | [], _ => reports_ok _ _
  | n :: ns, h => by
    unfold lowerNodes
    obtain ⟨hn, hns, hlt⟩ := List.pairwise_append.mp h
    refine (reports_lowerNode options n hn).bind (fun first _ => ?_) fun l hl m hm => ?_
    · exact (reports_lowerNodes options ns hns).bind_ok fun rest => first ++ rest
    · exact Nat.le_of_lt (hlt l hl m hm)

end

/-! ## Top-level lines -/

theorem reports_lowerComponent (options : Options) {line : Line} (signature : String)
    {children : List Node} (h : Ascending (line :: Outline.lines children)) :
    Reports (line :: Outline.lines children)
      (lowerComponent options line signature children) := by
  have hself : [line] ⊆ line :: Outline.lines children := by simp
  have hle : ∀ l ∈ [line], ∀ m ∈ line :: Outline.lines children, l.number ≤ m.number := by
    intro l hl m hm
    rw [List.mem_singleton.mp hl]
    rcases List.mem_cons.mp hm with rfl | hm
    · exact Nat.le_refl _
    · exact Nat.le_of_lt ((List.pairwise_cons.mp h).1 m hm)
  have hsubset : [line] ++ (line :: Outline.lines children) ⊆ line :: Outline.lines children := by
    simp
  unfold lowerComponent
  refine ((reports_read line _).bind (fun p _ => ?_) hle).mono hsubset
  refine ((reports_warn line _).bind (fun _ _ => ?_) hle).mono hsubset
  split
  · exact (reports_fail line _).mono hself
  · exact ((reports_lowerNodes options children (List.pairwise_cons.mp h).2).bind_ok _).mono
      (List.subset_cons_self _ _)

theorem reports_lowerTopLevel (options : Options) {node : Node} (h : Ascending node.lines) :
    Reports node.lines (lowerTopLevel options node) := by
  obtain ⟨line, children⟩ := node
  unfold lowerTopLevel
  dsimp only
  split
  · exact reports_ok _ _
  · exact (reports_lowerComponent options _ h).bind_ok _
  · exact (reports_fail line _).mono (by simp [Node.lines])

theorem lowerTopLevel_comment {options : Options} {node : Node}
    (h : LineKind.ofText node.line.text = .comment) :
    lowerTopLevel options node = .ok none := by
  obtain ⟨line, children⟩ := node
  simp only [lowerTopLevel, h]
  rfl

/-- Only a comment is lowered without a component and without a fault. -/
theorem lowerTopLevel_eq_none_iff {options : Options} {node : Node} :
    (lowerTopLevel options node).result = .ok none ↔
      LineKind.ofText node.line.text = .comment := by
  obtain ⟨line, children⟩ := node
  unfold lowerTopLevel
  dsimp only
  split
  · next hkind => exact iff_of_true rfl hkind
  · next hkind =>
    refine iff_of_false ?_ (by simp [hkind])
    intro h
    obtain ⟨_, -, h⟩ := Lowered.bind_eq_ok.mp h
    cases h
  · next hcomment _ => exact iff_of_false nofun hcomment

/-- The line number is that of a line of the node. -/
def Node.Holds (node : Node) (number : Nat) : Prop := ∃ line ∈ node.lines, line.number = number

/-- What a top-level line and the lines below it come to: nothing when it is a comment, else a
component, or an error behind all warnings. -/
inductive TopLevelOutcome (node : Node) : List Component → List Diagnostic → Prop
  | comment : LineKind.ofText node.line.text = .comment → TopLevelOutcome node [] []
  | component {c : Component} {warnings : List Diagnostic} :
      LineKind.ofText node.line.text ≠ .comment → c.line = node.line.number →
      (∀ w ∈ warnings, w.isError = false ∧ node.Holds w.line) →
      TopLevelOutcome node [c] warnings
  | error {warnings : List Diagnostic} {e : Diagnostic} :
      LineKind.ofText node.line.text ≠ .comment → e.isError = true → node.Holds e.line →
      (∀ w ∈ warnings, w.isError = false ∧ node.Holds w.line ∧ w.line ≤ e.line) →
      TopLevelOutcome node [] (warnings ++ [e])

theorem outcome_lowerTopLevel (options : Options) {node : Node} (h : Ascending node.lines) :
    TopLevelOutcome node (lowerTopLevel options node).component?.toList
      (lowerTopLevel options node).diagnostics := by
  have hreports := reports_lowerTopLevel options h
  have hlocated : ∀ d ∈ (lowerTopLevel options node).diagnostics, node.Holds d.line :=
    hreports.located
  have hordered := hreports.ordered
  have hnone : (lowerTopLevel options node).result = .ok none ↔
      LineKind.ofText node.line.text = .comment := lowerTopLevel_eq_none_iff
  cases hresult : (lowerTopLevel options node).result with
  | error e =>
    have hcomponent : (lowerTopLevel options node).component? = none := by
      rw [Lowered.component?, hresult]
    rw [diagnostics_of_error hresult] at hlocated hordered ⊢
    rw [hcomponent]
    refine .error (fun hc => ?_) (hreports.error e hresult) (hlocated e (by simp)) fun w hw => ?_
    · rw [hnone.mpr hc] at hresult
      cases hresult
    · refine ⟨hreports.warning w hw, hlocated w (List.mem_append_left _ hw), ?_⟩
      exact (List.pairwise_append.mp hordered).2.2 w hw e (List.mem_singleton_self e)
  | ok c? =>
    have hcomponent : (lowerTopLevel options node).component? = c? := by
      rw [Lowered.component?, hresult]
    cases c? with
    | none =>
      have hkind := hnone.mp hresult
      rw [hcomponent, lowerTopLevel_comment hkind]
      exact .comment hkind
    | some c =>
      rw [diagnostics_of_ok hresult] at hlocated ⊢
      have hline := (component_eq_some hcomponent).1
      rw [hcomponent]
      refine .component (fun hc => ?_) hline fun w hw => ⟨hreports.warning w hw, hlocated w hw⟩
      rw [hnone.mpr hc] at hresult
      cases hresult

/-- A component or an error for every line that is no comment. -/
theorem TopLevelOutcome.count {node : Node} {components : List Component}
    {diagnostics : List Diagnostic} (h : TopLevelOutcome node components diagnostics) :
    components.length + diagnostics.countP (·.isError) =
      if LineKind.ofText node.line.text = .comment then 0 else 1 := by
  have hwarnings : ∀ {ws : List Diagnostic}, (∀ w ∈ ws, w.isError = false) →
      ws.countP (·.isError) = 0 := fun hws => List.countP_eq_zero.mpr (by simpa using hws)
  cases h with
  | comment hc => simp [hc]
  | component hc _ hws => simp [hc, hwarnings fun w hw => (hws w hw).1]
  | error hc he _ hws => simp [hc, he, hwarnings fun w hw => (hws w hw).1]

/-! ## Outlines -/

theorem lower_components (options : Options) (outline : Outline) :
    (lower options outline).1 =
      outline.flatMap fun n => (lowerTopLevel options n).component?.toList := by
  rw [lower, List.filterMap_map, List.filterMap_eq_flatMap_toList]
  rfl

theorem ordered_diagnostics (options : Options) {outline : Outline}
    (h : Ascending (Outline.lines outline)) :
    (outline.flatMap fun n => (lowerTopLevel options n).diagnostics).Pairwise
      fun a b => a.line ≤ b.line := by
  obtain ⟨hnodes, hbetween⟩ := Outline.ascending_iff.mp h
  have hreports := fun n hn => reports_lowerTopLevel options (hnodes n hn)
  refine List.pairwise_flatMap.mpr ⟨fun n hn => (hreports n hn).ordered, ?_⟩
  refine hbetween.imp_of_mem fun {m n} hm hn hlt d hd e he => ?_
  obtain ⟨a, ha, hd⟩ := (hreports m hm).located d hd
  obtain ⟨b, hb, he⟩ := (hreports n hn).located e he
  rw [← hd, ← he]
  exact Nat.le_of_lt (hlt a ha b hb)

/-- **The diagnostics of an outline are in order before they are sorted.** -/
theorem lower_diagnostics (options : Options) {outline : Outline}
    (h : Ascending (Outline.lines outline)) :
    (lower options outline).2 =
      outline.flatMap fun n => (lowerTopLevel options n).diagnostics := by
  rw [lower, List.flatMap_map]
  refine List.mergeSort_of_pairwise ?_
  simpa using ordered_diagnostics options h

theorem lower_singleton (options : Options) {node : Node} (h : Ascending node.lines) :
    lower options [node] = ((lowerTopLevel options node).component?.toList,
      (lowerTopLevel options node).diagnostics) := by
  have hlines : Ascending (Outline.lines [node]) := by rwa [Outline.lines_singleton]
  refine Prod.ext ?_ ?_
  · rw [lower_components, List.flatMap_singleton]
  · rw [lower_diagnostics options hlines, List.flatMap_singleton]

theorem holds_of_mem_lower (options : Options) {outline : Outline}
    (h : Ascending (Outline.lines outline)) {d : Diagnostic} (hd : d ∈ (lower options outline).2) :
    ∃ n ∈ outline, n.Holds d.line := by
  rw [lower_diagnostics options h] at hd
  obtain ⟨n, hn, hd⟩ := List.mem_flatMap.mp hd
  exact ⟨n, hn, (reports_lowerTopLevel options ((Outline.ascending_iff.mp h).1 n hn)).located d hd⟩

/-- A line belongs to one top-level node. -/
theorem not_holds_of_ascending {above below : List Node} {node : Node}
    (h : Ascending (Outline.lines (above ++ node :: below))) {n : Node} (hn : n ∈ above ++ below)
    {number : Nat} (hnumber : n.Holds number) : ¬ node.Holds number := by
  rintro ⟨a, ha, ha'⟩
  obtain ⟨b, hb, hb'⟩ := hnumber
  obtain ⟨-, habove⟩ := Outline.ascending_iff.mp h
  obtain ⟨-, hbelow, habove⟩ := List.pairwise_append.mp habove
  rcases List.mem_append.mp hn with hn | hn
  · have := habove n hn node List.mem_cons_self b hb a ha
    omega
  · have := (List.pairwise_cons.mp hbelow).1 n hn a ha b hb
    omega

/-- The components and errors of nodes with known outcomes, counted. -/
theorem count_outcomes {outline : Outline} {components : Node → List Component}
    {diagnostics : Node → List Diagnostic}
    (h : ∀ n ∈ outline, TopLevelOutcome n (components n) (diagnostics n)) :
    (outline.flatMap components).length + (outline.flatMap diagnostics).countP (·.isError) =
      outline.countP fun n => LineKind.ofText n.line.text ≠ .comment := by
  induction outline with
  | nil => rfl
  | cons n ns ih =>
    rw [List.forall_mem_cons] at h
    have hn := h.1.count
    have hns := ih h.2
    rw [List.flatMap_cons, List.flatMap_cons, List.length_append, List.countP_append,
      List.countP_cons]
    by_cases hc : LineKind.ofText n.line.text = .comment
    · simp only [hc, if_true, ne_eq, not_true_eq_false, decide_false, Bool.false_eq_true,
        if_false] at hn hns ⊢
      omega
    · simp only [hc, if_false, ne_eq, not_false_eq_true, decide_true, if_true] at hn hns ⊢
      omega

/-- How the outcome of an outline is made up. -/
structure Accounted (options : Options) (outline : Outline) : Prop where
  /-- A top-level line comes to nothing if it is a comment, else to a component or to an error. -/
  outcome : ∀ node ∈ outline,
    TopLevelOutcome node (lower options [node]).1 (lower options [node]).2
  /-- Components and errors together are as many as the lines that are no comments. -/
  count : (lower options outline).1.length + (lower options outline).2.countP (·.isError) =
    outline.countP fun node => LineKind.ofText node.line.text ≠ .comment
  /-- The components are those of the top-level lines, in the order of the source. -/
  components : (lower options outline).1 = outline.flatMap fun node => (lower options [node]).1
  /-- The diagnostics are those of the top-level lines, one after the other. -/
  diagnostics : (lower options outline).2 = outline.flatMap fun node => (lower options [node]).2
  /-- They are collected in the order of their lines, so sorting them changes nothing. -/
  ordered : (outline.flatMap fun node => (lowerTopLevel options node).diagnostics).Pairwise
    fun a b => a.line ≤ b.line
  unsorted : (lower options outline).2 =
    outline.flatMap fun node => (lowerTopLevel options node).diagnostics
  /-- What stands before or after the diagnostics of a node is about none of its lines. -/
  apart : ∀ above node below, outline = above ++ node :: below →
    ∀ d ∈ (lower options above).2 ++ (lower options below).2, ¬ node.Holds d.line

theorem accounted_of_ascending (options : Options) {outline : Outline}
    (h : Ascending (Outline.lines outline)) : Accounted options outline := by
  obtain ⟨hnodes, -⟩ := Outline.ascending_iff.mp h
  have hsingle := fun n hn => lower_singleton options (hnodes n hn)
  have houtcome := fun n hn => outcome_lowerTopLevel options (hnodes n hn)
  refine ⟨fun n hn => ?_, ?_, ?_, ?_, ordered_diagnostics options h, lower_diagnostics options h, ?_⟩
  · rw [hsingle n hn]
    exact houtcome n hn
  · rw [lower_components, lower_diagnostics options h]
    exact count_outcomes houtcome
  · rw [lower_components]
    exact List.flatMap_congr fun n hn => by rw [hsingle n hn]
  · rw [lower_diagnostics options h]
    exact List.flatMap_congr fun n hn => by rw [hsingle n hn]
  · rintro above node below rfl d hd
    have hlines := h
    rw [Outline.lines_append, Outline.lines] at hlines
    obtain ⟨habove, hbelow, -⟩ := List.pairwise_append.mp hlines
    obtain ⟨-, hbelow, -⟩ := List.pairwise_append.mp hbelow
    rcases List.mem_append.mp hd with hd | hd
    · obtain ⟨n, hn, hd⟩ := holds_of_mem_lower options habove hd
      exact not_holds_of_ascending h (List.mem_append_left below hn) hd
    · obtain ⟨n, hn, hd⟩ := holds_of_mem_lower options hbelow hd
      exact not_holds_of_ascending h (List.mem_append_right above hn) hd

/-- **Every top-level line is accounted for.** In a source whose outline is read, each top-level
line that is no comment gives one component or one error, and the diagnostics are those of the
top-level lines one after the other. A source whose outline is not read gives no component and
one diagnostic. -/
theorem lower_accounts (options : Options) (source : String) :
    (∀ policy outline, Outline.parse policy source = .ok outline → Accounted options outline) ∧
    ∀ error, Outline.parse options.dedent source = .error error →
      (compile options source).components = [] ∧
        ∃ d, (compile options source).diagnostics = [d] ∧ d.kind = .indentation := by
  refine ⟨fun _ outline h => accounted_of_ascending options (ascending_of_parse h), ?_⟩
  intro error h
  have hcompile : compile options source = ⟨[], [⟨.indentation, error.line, error.message⟩]⟩ := by
    simp only [compile, h]
  rw [hcompile]
  exact ⟨rfl, _, rfl, rfl⟩

/-- A component that fails after two warnings, a comment, a stray line and a component. -/
def mixedSource : String :=
  "component A()\n\tHeader\n\t\tp Ignored\n\timg(alt='x')\n// note\np Stray\ncomponent B\n\tp Fine\n"

def mixedOutline : Outline :=
  [⟨⟨1, 0, "component A()"⟩,
      [⟨⟨2, 1, "Header"⟩, [⟨⟨3, 2, "p Ignored"⟩, []⟩]⟩, ⟨⟨4, 1, "img(alt='x')"⟩, []⟩]⟩,
    ⟨⟨5, 0, "// note"⟩, []⟩, ⟨⟨6, 0, "p Stray"⟩, []⟩,
    ⟨⟨7, 0, "component B"⟩, [⟨⟨8, 1, "p Fine"⟩, []⟩]⟩]

theorem lower_accounts_mixed :
    Outline.parse .singleLevel mixedSource = .ok mixedOutline ∧
      (lower {} mixedOutline).2.map (fun d => (d.kind, d.line)) =
        [(.parenthesesStyle, 1), (.ignoredChildren, 2), (.stringQuote, 4), (.componentScope, 6)] ∧
      (lower {} mixedOutline).1.length + (lower {} mixedOutline).2.countP (·.isError) = 3 ∧
      Outline.parse .singleLevel "p\n\t\tp" = .error ⟨2, 2, -1⟩ ∧
      (compile {} "p\n\t\tp").components = [] := by
  have hparse : Outline.parse .singleLevel mixedSource = .ok mixedOutline := rfl
  have haccounted := (lower_accounts {} mixedSource).1 .singleLevel mixedOutline hparse
  have hdiagnostics : (lower {} mixedOutline).2.map (fun d => (d.kind, d.line)) =
      [(.parenthesesStyle, 1), (.ignoredChildren, 2), (.stringQuote, 4), (.componentScope, 6)] := by
    rw [haccounted.unsorted]
    decide +kernel
  have hcount : mixedOutline.countP (fun n => LineKind.ofText n.line.text ≠ .comment) = 3 := by
    decide +kernel
  have herror : Outline.parse .singleLevel "p\n\t\tp" = .error ⟨2, 2, -1⟩ := rfl
  have hempty := ((lower_accounts {} "p\n\t\tp").2 _ herror).1
  exact ⟨hparse, hdiagnostics, haccounted.count.trans hcount, herror, hempty⟩

end Stencil
