/-
Static bodies. A body is static when it writes nothing but texts, its own and those of static
components that it calls without arguments; `StaticText` says this together with the text that is
written, and holds of no body that calls itself, directly or through others.

Neither coalescing nor a round of inlining changes which bodies are static or what they write
(`staticText_coalesce`, `staticText_replace`), so the optimized components have the static bodies
that the given ones had. Once inlining has settled, no static call is left in them, and a normal
body of texts alone is one text or nothing (`collapsed_of_staticText`). The names have to be
distinct: under a name that several components share only one of them is inlined.
-/
import Mathlib.Data.List.Forall2
import Stencil.Proofs.Inlining.FixedPoint

namespace Stencil.Inlining

open Instructions

/-- The body writes `text` whatever the values are: each of its instructions is a text or a call
without arguments of a parameterless component whose body is static in turn. -/
inductive StaticText (components : List Component) : Instructions → String → Prop
  | nil : StaticText components [] ""
  | literal (text : String) {is : Instructions} {rest : String} :
      StaticText components is rest → StaticText components (.literal text :: is) (text ++ rest)
  | call {c : Component} {name args text : String} {is : Instructions} {rest : String} :
      c ∈ components → c.signature.name = name → c.signature.isParameterless = true →
      Text.allBlank args.toList = true → StaticText components c.body text →
      StaticText components is rest → StaticText components (.call name args :: is) (text ++ rest)

variable {components : List Component} {text : String}

/-! ## Single instructions -/

theorem staticText_nil : StaticText components [] text ↔ text = "" := by
  constructor
  · rintro ⟨⟩
    rfl
  · rintro rfl
    exact .nil

/-- A body is static when its instructions are, one by one. -/
theorem staticText_cons (i : Instruction) (is : Instructions) :
    StaticText components (i :: is) text ↔
      ∃ first rest, text = first ++ rest ∧ StaticText components [i] first ∧
        StaticText components is rest := by
  constructor
  · intro h
    cases h with
    | literal t his => exact ⟨t, _, rfl, by simpa using StaticText.literal t .nil, his⟩
    | call hc hname hp hargs hbody his =>
      exact ⟨_, _, rfl, by simpa using StaticText.call hc hname hp hargs hbody .nil, his⟩
  · rintro ⟨first, rest, rfl, hfirst, hrest⟩
    cases hfirst with
    | literal t hnil =>
      rw [staticText_nil.mp hnil, String.append_empty]
      exact .literal t hrest
    | call hc hname hp hargs hbody hnil =>
      rw [staticText_nil.mp hnil, String.append_empty]
      exact .call hc hname hp hargs hbody hrest

theorem staticText_literal {t : String} : StaticText components [.literal t] text ↔ text = t := by
  constructor
  · intro h
    cases h with
    | literal _ hnil => rw [staticText_nil.mp hnil, String.append_empty]
  · rintro rfl
    have h : StaticText components [.literal text] (text ++ "") := .literal text .nil
    rwa [String.append_empty] at h

theorem staticText_call {name args : String} :
    StaticText components [.call name args] text ↔
      ∃ c ∈ components, c.signature.name = name ∧ c.signature.isParameterless = true ∧
        Text.allBlank args.toList = true ∧ StaticText components c.body text := by
  constructor
  · intro h
    cases h with
    | call hc hname hp hargs hbody hnil =>
      rw [staticText_nil.mp hnil, String.append_empty]
      exact ⟨_, hc, hname, hp, hargs, hbody⟩
  · rintro ⟨c, hc, hname, hp, hargs, hbody⟩
    simpa using StaticText.call hc hname hp hargs hbody .nil

theorem not_staticText_control {header : Header} {body : Instructions} :
    ¬ StaticText components [.control header body] text := nofun

/-- A constant component writes its constant text. -/
theorem staticText_of_constant {c : Component} {t : String} (h : c.constantText? = some t) :
    StaticText components c.body text ↔ text = t := by
  rcases (constantText?_eq_some h).2 with ⟨hb, rfl⟩ | hb
  · rw [hb, staticText_nil]
  · rw [hb, staticText_literal]

/-! ## Coalescing -/

theorem staticText_consLiteral (t : String) (body : Instructions) :
    StaticText components (consLiteral t body) text ↔
      StaticText components (.literal t :: body) text := by
  rw [staticText_cons (.literal t) body]
  unfold consLiteral
  split
  · next hempty => simp [staticText_literal, String.isEmpty_iff.mp hempty]
  · split
    · next next rest =>
      simp only [staticText_cons _ rest, staticText_literal]
      constructor
      · rintro ⟨first, after, htext, hfirst, hafter⟩
        refine ⟨t, next ++ after, ?_, rfl, next, after, rfl, rfl, hafter⟩
        rw [htext, hfirst, String.append_assoc]
      · rintro ⟨first, second, htext, hfirst, third, after, hsecond, hthird, hafter⟩
        refine ⟨t ++ next, after, ?_, rfl, hafter⟩
        rw [htext, hfirst, hsecond, hthird, String.append_assoc]
    · rw [staticText_cons]

/-- **Coalescing keeps what a static body writes**, and makes no other body static. -/
theorem staticText_coalesce : ∀ (body : Instructions) (text : String),
    StaticText components body.coalesce text ↔ StaticText components body text
  | [], _ => Iff.rfl
  | .literal t :: is, text => by
    simp only [coalesce_literal, staticText_consLiteral, staticText_cons _ is,
      staticText_cons _ (coalesce is), staticText_coalesce is]
  | .control header body :: is, text => by
    simp only [coalesce_control, staticText_cons _ is, staticText_cons _ (coalesce is),
      not_staticText_control, false_and, and_false]
  | .expression _ _ :: is, text | .call _ _ :: is, text => by
    simp only [coalesce_expression, coalesce_call, staticText_cons _ is,
      staticText_cons _ (coalesce is), staticText_coalesce is]

/-! ## Replacing calls -/

/-- The texts of a table are the static texts of the calls that they replace. -/
def Faithful (components : List Component) (table : Table) : Prop :=
  ∀ name args t, table.callText? name args = some t →
    ∀ text, StaticText components [.call name args] text ↔ text = t

/-- **Replacing calls by their static texts keeps what a static body writes.** -/
theorem staticText_replace {table : Table} (h : Faithful components table) :
    ∀ (body : Instructions) (text : String),
      StaticText components (replace table body) text ↔ StaticText components body text
  | [], _ => Iff.rfl
  | i :: is, text => by
    have hone : ∀ text, StaticText components [replaceOne table i] text ↔
        StaticText components [i] text := by
      intro text
      cases i with
      | literal | expression => exact Iff.rfl
      | control header body =>
        exact iff_of_false not_staticText_control not_staticText_control
      | call name args =>
        simp only [replaceOne]
        split
        · next t ht => rw [staticText_literal, h name args t ht text]
        · exact Iff.rfl
    rw [replace, staticText_cons, staticText_cons _ is]
    simp only [hone, staticText_replace h is]

theorem staticText_inlineOnce {table : Table} (h : Faithful components table) (c : Component)
    (text : String) :
    StaticText components (inlineOnce table c).body text ↔ StaticText components c.body text := by
  rcases inlineOnce_body table c with ⟨-, hb⟩ | hb
  · rw [hb]
  · rw [hb, staticText_coalesce, staticText_replace h]

/-- A table of constant components is faithful to any components among which they are, if no two
of these share a name. -/
theorem faithful_tableOf {cs : List Component}
    (hnames : (components.map (·.signature.name)).Nodup)
    (hmem : ∀ c ∈ cs, c.constantText?.isSome → c ∈ components) :
    Faithful components (tableOf cs) := by
  intro name args t ht text
  unfold Table.callText? at ht
  split at ht
  · next hargs =>
    obtain ⟨c, hc, rfl, hconst⟩ := mem_tableOf (text?_eq_some_mem ht)
    have hc' : c ∈ components := hmem c hc (by rw [hconst]; rfl)
    rw [staticText_call]
    constructor
    · rintro ⟨d, hd, hname, -, -, hbody⟩
      rw [List.inj_on_of_nodup_map hnames hd hc' hname] at hbody
      exact (staticText_of_constant hconst).mp hbody
    · intro htext
      exact ⟨c, hc', rfl, (constantText?_eq_some hconst).1, hargs,
        (staticText_of_constant hconst).mpr htext⟩
  · cases ht

/-! ## A run -/

/-- A body that is static among some components is static among others, if each of the first has
a counterpart that writes the same. -/
theorem StaticText.of_counterparts {cs ds : List Component} {body : Instructions}
    (h : StaticText cs body text)
    (hcounter : ∀ c ∈ cs, ∃ d ∈ ds, d.signature = c.signature ∧
      ∀ t, StaticText ds c.body t → StaticText ds d.body t) : StaticText ds body text := by
  induction h with
  | nil => exact .nil
  | literal t _ ih => exact .literal t ih
  | call hc hname hp hargs _ _ ihbody ih =>
    obtain ⟨d, hd, hsignature, hbody⟩ := hcounter _ hc
    exact .call hd (hsignature ▸ hname) (hsignature ▸ hp) hargs (hbody _ ihbody) ih

/-- A change of bodies that is invisible among the components before it and among those after it
keeps what every body writes. -/
theorem staticText_map {cs : List Component} {f : Component → Component}
    (hsignature : ∀ c, (f c).signature = c.signature)
    (hbefore : ∀ c t, StaticText cs (f c).body t ↔ StaticText cs c.body t)
    (hafter : ∀ c t, StaticText (cs.map f) (f c).body t ↔ StaticText (cs.map f) c.body t)
    (c : Component) (t : String) :
    StaticText (cs.map f) (f c).body t ↔ StaticText cs c.body t := by
  rw [hafter]
  constructor
  · intro h
    refine h.of_counterparts fun d hd => ?_
    obtain ⟨c, hc, rfl⟩ := List.mem_map.mp hd
    exact ⟨c, hc, (hsignature c).symm, fun t => (hbefore c t).mp⟩
  · intro h
    refine h.of_counterparts fun c hc => ?_
    exact ⟨f c, List.mem_map_of_mem hc, hsignature c, fun t => (hafter c t).mpr⟩

theorem map_name_map {f : Component → Component} (h : ∀ c, (f c).signature = c.signature)
    (cs : List Component) :
    (cs.map f).map (·.signature.name) = cs.map (·.signature.name) := by
  rw [List.map_map]
  exact List.map_congr_left fun c _ => congrArg Signature.name (h c)

/-- What stays as it is while the components are rewritten: their signatures, and what the static
bodies among them write. -/
structure KeepsStatic (components result : List Component) : Prop where
  nodup : (result.map (·.signature.name)).Nodup
  paired : List.Forall₂ (fun c d => d.signature = c.signature ∧
    ∀ t, StaticText result d.body t ↔ StaticText components c.body t) components result

theorem KeepsStatic.refl (h : (components.map (·.signature.name)).Nodup) :
    KeepsStatic components components :=
  ⟨h, List.forall₂_same.mpr fun _ _ => ⟨rfl, fun _ => Iff.rfl⟩⟩

theorem KeepsStatic.counterpart {result : List Component} (h : KeepsStatic components result)
    {c : Component} (hc : c ∈ components) : ∃ d ∈ result, d.signature = c.signature ∧
      ∀ t, StaticText result d.body t ↔ StaticText components c.body t := by
  obtain ⟨i, hi, rfl⟩ := List.getElem_of_mem hc
  have hi' : i < result.length := h.paired.length_eq ▸ hi
  exact ⟨result[i], List.getElem_mem hi', h.paired.get hi hi'⟩

theorem KeepsStatic.map {result : List Component} (h : KeepsStatic components result)
    {f : Component → Component} (hsignature : ∀ c, (f c).signature = c.signature)
    (hstatic : ∀ c t, StaticText (result.map f) (f c).body t ↔ StaticText result c.body t) :
    KeepsStatic components (result.map f) := by
  refine ⟨(map_name_map hsignature result).symm ▸ h.nodup, ?_⟩
  rw [List.forall₂_map_right_iff]
  refine h.paired.imp fun c d hcd => ?_
  exact ⟨(hsignature d).trans hcd.1, fun t => (hstatic d t).trans (hcd.2 t)⟩

theorem KeepsStatic.coalesce (h : (components.map (·.signature.name)).Nodup) :
    KeepsStatic components (components.map fun c => { c with body := c.body.coalesce }) :=
  (KeepsStatic.refl h).map (fun _ => rfl) (staticText_map (fun _ => rfl)
    (fun c => staticText_coalesce c.body) fun c => staticText_coalesce c.body)

theorem KeepsStatic.round {result : List Component} (h : KeepsStatic components result) :
    KeepsStatic components (round result) := by
  have hsignature := inlineOnce_signature (tableOf result)
  have hnodup : ((Inlining.round result).map (·.signature.name)).Nodup :=
    (map_name_map hsignature result).symm ▸ h.nodup
  -- A constant component is not changed by the round, so it is there before and after it.
  have hbefore : Faithful result (tableOf result) := faithful_tableOf h.nodup fun _ hc _ => hc
  have hafter : Faithful (Inlining.round result) (tableOf result) := by
    refine faithful_tableOf hnodup fun c hc hconst => ?_
    obtain ⟨t, ht⟩ := Option.isSome_iff_exists.mp hconst
    exact List.mem_map.mpr ⟨c, hc, inlineOnce_of_constant _ ht⟩
  exact h.map hsignature (staticText_map hsignature (staticText_inlineOnce hbefore)
    (staticText_inlineOnce hafter))

theorem keepsStatic_optimize {options : Options} (hinline : options.inlineTrivial = true)
    (h : (components.map (·.signature.name)).Nodup) :
    KeepsStatic components (optimize options components) := by
  unfold optimize
  rw [if_pos hinline]
  exact rounds_invariant (P := KeepsStatic components) (fun _ => KeepsStatic.round) _
    (KeepsStatic.coalesce h)

/-! ## Settled components -/

/-- The body that writes one text, without an instruction when there is nothing to write. -/
def textBody (text : String) : Instructions := if text = "" then [] else [.literal text]

theorem textBody_constant (text : String) :
    textBody text = [] ∨ ∃ t, textBody text = [.literal t] := by
  unfold textBody
  split
  · exact .inl rfl
  · exact .inr ⟨text, rfl⟩

/-- A static body that is normal and calls no constant component is one text or nothing. The
induction runs over what makes the body static, so a component that is called has collapsed
already, and is constant after all. -/
theorem collapsed_of_staticText {body : Instructions} (h : StaticText components body text)
    (hsettled : Settled components) (hnormal : ∀ c ∈ components, c.body.Normal)
    (hbody : body.Normal) (hcalls : ∀ name args, (name, args) ∈ body.calls →
      Text.allBlank args.toList = true → name ∉ constantNames components) :
    body = textBody text := by
  induction h with
  | nil => rfl
  | @literal t is rest _ ih =>
    obtain ⟨ht, hapart, his⟩ := hbody
    have ht : t ≠ "" := ht
    have hrest := ih his (by simpa using hcalls)
    unfold textBody at hrest
    split at hrest
    · next hempty => rw [hrest, hempty, String.append_empty, textBody, if_neg ht]
    · rw [hrest] at hapart
      exact hapart.elim
  | @call c name args t is rest hc hname hp hargs _ _ ihbody _ =>
    have hconst := ihbody (hnormal c hc) (hsettled c hc)
    refine absurd ?_ (hcalls name args (by simp) hargs)
    refine mem_constantNames.mpr ⟨c, hc, hname, constantText?_isSome hp ?_⟩
    rw [hconst]
    exact textBody_constant t

theorem collapsed_optimize {options : Options} (hinline : options.inlineTrivial = true)
    {d : Component} (hd : d ∈ optimize options components)
    (h : StaticText (optimize options components) d.body text) :
    d.body = textBody text :=
  collapsed_of_staticText h (settled_optimize hinline components)
    (normal_optimize options components) (normal_optimize options components d hd)
    (settled_optimize hinline components d hd)

/-- **Static components collapse completely, and only those.** Of components with distinct names,
optimized with inlining on, just those whose bodies were static come out as one text or nothing,
and the text is the static one. No call of a static component is left. -/
theorem optimize_static (options : Options) (components : List Component)
    (hinline : options.inlineTrivial = true)
    (hnames : (components.map (·.signature.name)).Nodup) :
    List.Forall₂ (fun c d => d.signature = c.signature ∧
        ((d.body = [] ∨ ∃ text, d.body = [.literal text]) ↔
          ∃ text, StaticText components c.body text) ∧
        ∀ text, StaticText components c.body text →
          (d.body = [] ↔ text = "") ∧ (text ≠ "" → d.body = [.literal text]))
      components (optimize options components) ∧
    ∀ c ∈ components, c.signature.isParameterless = true →
      (∃ text, StaticText components c.body text) →
        ∀ d ∈ optimize options components, ∀ args : String, Text.allBlank args.toList = true →
          .call c.signature.name args ∉ d.body.walk := by
  have hkeeps := keepsStatic_optimize hinline hnames
  constructor
  · have hpaired := hkeeps.paired
    rw [List.forall₂_iff_zip] at hpaired ⊢
    refine ⟨hpaired.1, fun {c d} hcd => ?_⟩
    obtain ⟨hsignature, hstatic⟩ := hpaired.2 hcd
    have hd := (List.of_mem_zip hcd).2
    refine ⟨hsignature, ⟨?_, ?_⟩, ?_⟩
    · rintro (hb | ⟨text, hb⟩)
      · exact ⟨"", (hstatic "").mp (hb ▸ .nil)⟩
      · exact ⟨text, (hstatic text).mp (hb ▸ staticText_literal.mpr rfl)⟩
    · rintro ⟨text, htext⟩
      rw [collapsed_optimize hinline hd ((hstatic text).mpr htext)]
      exact textBody_constant text
    · intro text htext
      rw [collapsed_optimize hinline hd ((hstatic text).mpr htext), textBody]
      refine ⟨by simp, fun hne => if_neg hne⟩
  · rintro c hc hp ⟨text, htext⟩ d hd args hargs hcall
    obtain ⟨e, he, hsignature, hstatic⟩ := hkeeps.counterpart hc
    rw [← hsignature] at hp hcall
    refine not_constant_of_call (settled_optimize hinline components) hd he hcall hargs hp ?_
    rw [collapsed_optimize hinline he ((hstatic text).mpr htext)]
    exact textBody_constant text

theorem optimize_static_relay :
    (relay.map (·.signature.name)).Nodup ∧
      StaticText relay [.literal "<b>", .call "Logo" "", .literal "</b>"] "<b>x</b>" ∧
      (¬ ∃ text, StaticText relay loop.body text) ∧
      ∀ d ∈ relayed, ∀ args : String, Text.allBlank args.toList = true →
        .call "Head" args ∉ d.body.walk := by
  have hnames : (relay.map (·.signature.name)).Nodup := by decide
  have hlogo : StaticText relay [.literal "x"] "x" := staticText_literal.mpr rfl
  have hhead : StaticText relay [.literal "<b>", .call "Logo" "", .literal "</b>"] "<b>x</b>" :=
    .literal "<b>" (.call (c := ⟨⟨"Logo", []⟩, 5, [.literal "x"]⟩) (by simp [relay]) rfl rfl rfl
      hlogo (staticText_literal.mpr rfl))
  obtain ⟨hpaired, hcalls⟩ := optimize_static {} relay rfl hnames
  have hoptimize : optimize {} relay = relayed := rfl
  rw [hoptimize] at hpaired hcalls
  have hloop := (hpaired.get (i := 3) (by decide) (by decide)).2.1
  refine ⟨hnames, hhead, fun h => ?_, ?_⟩
  · rcases hloop.mpr h with hb | ⟨_, hb⟩ <;> cases hb
  · exact hcalls ⟨⟨"Head", []⟩, 3, [.literal "<b>", .call "Logo" "", .literal "</b>"]⟩
      (by simp [relay]) rfl ⟨_, hhead⟩

end Stencil.Inlining
