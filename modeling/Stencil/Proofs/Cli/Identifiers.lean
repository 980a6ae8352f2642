/-
The identifiers of a bundle. The search for clashes finds none exactly when no routine name is given
twice, and no component is compiled under the name of a helper that the header of the bundle
declares. The packages that the header imports are not looked at: a bundle without clashes declares
every identifier once unless a component has the name of one of them.
-/
import Stencil.Proofs.Cli.Clashes
import Stencil.Proofs.Code.Declarations

namespace Stencil.Cli

open Text Stencil.Language

/-- The components of all files, in the order they are bundled. -/
def bundled (files : List FileResult) : List CompiledComponent :=
  files.flatMap (·.output.components)

namespace Clash

theorem map_emissions (d : Dialect) (files : List FileResult) :
    (emissions d files).map (·.1) = (bundled files).flatMap fun c => routinesOf d c.name := by
  simp [emissions, bundled, List.map_flatMap, List.flatMap_assoc, Function.comp_def]

/-- No routine of a compiled component goes unseen. -/
theorem routinesOf_eq {options : Options} {c : CompiledComponent} (h : c.IsFor options.target) :
    routinesOf options.dialect c.name = options.dialect.routinePair c.name := by
  obtain ⟨b, t, hnames, hb, ht⟩ := h.exists_routineNames
  rw [routinesOf, Dialect.routinePair, hnames]
  simp [hb.ne_empty, ht.ne_empty]

end Clash

/-- No routine of a component has a name of the header, unless the component has the name of an
imported package: helpers are refused as names, and no name of the header begins as those of
streaming routines do. -/
theorem routinePair_disjoint_iff {options : Options} {c : CompiledComponent}
    (h : c.IsFor options.target) :
    (options.target.imports ++ options.target.helpers).Disjoint
        (options.dialect.routinePair c.name) ↔
      c.name ∉ options.target.imports := by
  obtain ⟨b, t, hnames, -⟩ := h.exists_routineNames
  rw [Dialect.routinePair, hnames]
  unfold Options.dialect at hnames
  cases htarget : options.target with
  | rust => simp [imports, helpers]
  | go =>
    rw [htarget] at hnames
    obtain ⟨rfl, rfl, -, -, hreserved⟩ := Dialect.Go.of_routineNames hnames
    have hhelpers : c.name ∉ Language.go.helpers := by
      have hsub : Language.go.helpers ⊆ Dialect.Go.reservedNames := by decide
      exact fun hmem => hreserved (hsub hmem)
    have hstream : Dialect.Go.streamingName c.name ∉
        Language.go.imports ++ Language.go.helpers := by
      have hfront : ∀ name ∈ Language.go.imports ++ Language.go.helpers,
          ¬"stream".toList <+: name.toList := by
        decide
      intro hmem
      refine hfront _ hmem ?_
      rw [Dialect.Go.streamingName, String.toList_append]
      exact List.prefix_append _ _
    rw [List.mem_append, not_or] at hstream
    simp [List.disjoint_right, hhelpers, hstream]

/-- **A bundle declares every identifier once exactly when no clash is found and no component has
the name of an imported package.** The identifiers are what can be read off the bundle, if the name
of its package is on one line. -/
theorem identifiers_nodup_iff {options : Options} {files : List FileResult}
    (hfiles : ∀ f ∈ files, ∃ (o : Options) (source : String),
      o.target = options.target ∧ f.output = compile o source) :
    ((options.identifiers (bundled files)).Nodup ↔
        Clash.find options.dialect files = [] ∧
          ∀ c ∈ bundled files, c.name ∉ options.target.imports) ∧
      ('\n' ∉ options.packageName.toList →
        options.target.declared (lines (bundle options (bundled files)).toList) =
          options.identifiers (bundled files)) := by
  have hcompiled : ∀ c ∈ bundled files, c.IsFor options.target := by
    intro c hc
    obtain ⟨f, hf, hmem⟩ := List.mem_flatMap.mp hc
    obtain ⟨o, source, htarget, houtput⟩ := hfiles f hf
    exact ⟨o, source, htarget, houtput ▸ hmem⟩
  have hheader : (options.target.imports ++ options.target.helpers).Nodup := by
    cases options.target <;> decide
  have hroutines : Clash.find options.dialect files = [] ↔
      ((bundled files).flatMap fun c => options.dialect.routinePair c.name).Nodup := by
    rw [Clash.find_eq_nil_iff, Clash.map_emissions]
    rw [List.flatMap_congr fun c hc => Clash.routinesOf_eq (hcompiled c hc)]
  refine ⟨?_, fun hpackage => declared_bundle hpackage hcompiled⟩
  have hdisjoint : (options.target.imports ++ options.target.helpers).Disjoint
      ((bundled files).flatMap fun c => options.dialect.routinePair c.name) ↔
        ∀ c ∈ bundled files, c.name ∉ options.target.imports := by
    constructor
    · intro h c hc
      rw [← routinePair_disjoint_iff (hcompiled c hc)]
      exact fun name hname hpair => h hname (List.mem_flatMap.mpr ⟨c, hc, hpair⟩)
    · intro h name hname hmem
      obtain ⟨c, hc, hpair⟩ := List.mem_flatMap.mp hmem
      exact (routinePair_disjoint_iff (hcompiled c hc)).mpr (h c hc) hname hpair
  rw [Options.identifiers, List.nodup_append', hroutines, hdisjoint]
  exact and_iff_right hheader

/-- Names next to those of packages, and one whose routine is named as a streaming one. -/
def shelfFiles : List FileResult :=
  [⟨"a.sprig", compile { target := .go } "component Html\n\tp Hi\ncomponent streamer\n\tHtml\n"⟩,
    ⟨"b.sprig", compile { target := .go } "component Strings\n\tHtml\n"⟩]

theorem identifiers_nodup_iff_shelf :
    (∀ f ∈ shelfFiles, ∃ (o : Options) (source : String),
      o.target = .go ∧ f.output = compile o source) ∧
      Clash.find .go shelfFiles = [] ∧
      Options.identifiers { target := .go } (bundled shelfFiles) =
        ["fmt", "html", "strings", "sync", "pool", "acquireStringsBuilder",
          "releaseStringsBuilder", "Html", "streamHtml", "streamer", "streamStreamer", "Strings",
          "streamStrings"] ∧
      (Options.identifiers { target := .go } (bundled shelfFiles)).Nodup := by
  have hfiles : ∀ f ∈ shelfFiles, ∃ (o : Options) (source : String),
      o.target = .go ∧ f.output = compile o source := by
    simp only [shelfFiles, List.forall_mem_cons]
    exact ⟨⟨{ target := .go }, _, rfl, rfl⟩, ⟨{ target := .go }, _, rfl, rfl⟩, by simp⟩
  have hclash : Clash.find .go shelfFiles = [] :=
    (Clash.find_eq_nil_iff _ _).mpr (by decide +kernel)
  have hnames : ∀ c ∈ bundled shelfFiles, c.name ∉ Language.go.imports := by decide +kernel
  obtain ⟨hiff, -⟩ := @identifiers_nodup_iff { target := .go } shelfFiles hfiles
  exact ⟨hfiles, hclash, by decide +kernel, hiff.mpr ⟨hclash, hnames⟩⟩

/-- A component with the name of a package. -/
def packageFiles : List FileResult :=
  [⟨"a.sprig", compile { target := .go } "component html\n\tp Hi\n"⟩]

/-- No clash is found, and the bundle declares what it imports. -/
theorem package_declared_again :
    Clash.find .go packageFiles = [] ∧
      Options.identifiers { target := .go } (bundled packageFiles) =
        ["fmt", "html", "strings", "sync", "pool", "acquireStringsBuilder",
          "releaseStringsBuilder", "html", "streamHtml"] ∧
      ¬(Language.go.declared
        (lines (bundle { target := .go } (bundled packageFiles)).toList)).Nodup := by
  have hcompiled : ∀ c ∈ bundled packageFiles, c.IsFor .go := by
    intro c hc
    obtain ⟨f, hf, hmem⟩ := List.mem_flatMap.mp hc
    rw [List.mem_singleton.mp hf] at hmem
    exact ⟨{ target := .go }, "component html\n\tp Hi\n", rfl, hmem⟩
  have hdeclared := @declared_bundle { target := .go } (by decide) (bundled packageFiles) hcompiled
  have hidentifiers : Options.identifiers { target := .go } (bundled packageFiles) =
      ["fmt", "html", "strings", "sync", "pool", "acquireStringsBuilder",
        "releaseStringsBuilder", "html", "streamHtml"] := by
    decide +kernel
  refine ⟨(Clash.find_eq_nil_iff _ _).mpr (by decide +kernel), hidentifiers, ?_⟩
  rw [hdeclared, hidentifiers]
  decide

end Stencil.Cli
