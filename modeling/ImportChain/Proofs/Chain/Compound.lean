/-
ImportChain.Proofs.Chain.Compound — a chain asked for by its own request.

The request of a chain names every loader and the resource. With the mark
that suppresses all rule loaders it leads to the same chain again
(`compound_of_defaultResolver`), provided the delegate leaves its paths
alone and its printed loaders are read back as they were meant
(`Setup.Recalls`). The settings come from the rules once more: they do not
depend on the mark.

`Chain.parse_compound` is what the printed chain reads back as, and
`Setup.assemble_of_everything` what becomes of it. That parser and
generator are given again is a matter of the bench.
-/
import ImportChain.Proofs.Chain.Assembly
import ImportChain.Proofs.Factory.Registry
import ImportChain.Proofs.Loader.Regular

namespace ImportChain

open Outcome Text

/-! ## Printed chains -/

/-- Whether a loader can be asked for by its printed form. -/
structure Setup.Recalls (s : Setup) (r : ImportRequest) (loader : ResolvedLoader) : Prop where
  named : loader.path ≠ ""
  /-- The printed form is one segment of a request. -/
  segment : '!' ∉ loader.toIdent.toList
  /-- No query is taken for a reference. -/
  query : ∀ query, loader.options = .inline query → query.toList.head? ≠ some '?'
  /-- The delegate leaves the path alone, sought from where requests are
  made. -/
  fixed : ∃ data, s.delegate (loaderCall r.info r.context loader.path Setup.loaderOptions)
    = .ok (.resolved loader.path data)
  /-- An identity leads to the loader's own options. -/
  registered : ∀ ident, loader.ident = some ident →
    (s.rules.options? ident).map LoaderOptions.structured = some loader.options

theorem ResolvedLoader.toIdent_toList_ne_nil {loader : ResolvedLoader} (h : loader.path ≠ "") :
    loader.toIdent.toList ≠ [] := by
  intro he
  refine h (String.toList_eq_nil_iff.1 ?_)
  unfold toIdent identText at he
  split at he <;> simp_all [String.toList_append]

namespace Chain

/-- The printed loaders of a chain. -/
def segments (loaders : List ResolvedLoader) : List (List Char) :=
  loaders.map fun loader => loader.toIdent.toList

theorem toList_compound (loaders : List ResolvedLoader) (resource : String) :
    (compound loaders resource).toList = linked '!' (segments loaders) resource.toList := by
  unfold compound segments
  rw [Request.toList_chainText, List.map_map]
  rfl

section Recalled

variable {s : Setup} {r : ImportRequest} {loaders : List ResolvedLoader}
  (h : ∀ loader ∈ loaders, s.Recalls r loader)

include h

theorem bang_notMem_segments : ∀ segment ∈ segments loaders, '!' ∉ segment := by
  intro segment hs
  obtain ⟨loader, hl, rfl⟩ := List.mem_map.1 hs
  exact (h loader hl).segment

theorem nil_notMem_segments : [] ∉ segments loaders := by
  intro hs
  obtain ⟨loader, hl, hnil⟩ := List.mem_map.1 hs
  exact ResolvedLoader.toIdent_toList_ne_nil (h loader hl).named hnil

/-- Regular loaders are read back from their printed forms. -/
theorem map_ofChars_segments (hregular : ∀ loader ∈ loaders, loader.Regular) :
    (segments loaders).map LoaderSpec.ofChars = loaders.map ResolvedLoader.asWritten := by
  unfold segments
  rw [List.map_map]
  exact List.map_congr_left fun loader hl =>
    ResolvedLoader.ofChars_toIdent (hregular loader hl) (h loader hl).query

/-- A printed chain reads back as its loaders as written, followed by its
resource. -/
theorem parse_compound (hregular : ∀ loader ∈ loaders, loader.Regular) {resource : String}
    (hresource : '!' ∉ resource.toList) (context : String) :
    Request.parse context ("!!" ++ compound loaders resource)
      = ⟨none, .everything, loaders.map ResolvedLoader.asWritten, resource⟩ := by
  have hbang := bang_notMem_segments h
  have hnil := nil_notMem_segments h
  have htext : ("!!" ++ compound loaders resource).toList
      = Suppression.everything.mark.toList ++ linked '!' (segments loaders) resource.toList := by
    rw [String.toList_append, toList_compound]
    rfl
  unfold Request.parse
  rw [htext,
    (Request.splitMatchResource_marked_eq_none_iff .everything hbang hresource hnil).2 nofun]
  have hbody := Request.ofBody_marked none .everything hbang hresource hnil nofun
  rwa [map_ofChars_segments h hregular, String.ofList_toList] at hbody

end Recalled

end Chain

/-! ## Chains without rule loaders -/

namespace Setup

variable {s : Setup} {info : ContextInfo} {parsed : Request} {resource : String}

theorem assemble_of_everything (h : parsed.suppression = .everything)
    (inline : List ResolvedLoader) (data : Option Json) :
    s.assemble info parsed inline resource data
      = .ok { loaders := inline, inline, resource, resourceData := data
              settings := Settings.empty.applyAll
                ((s.effects info parsed resource).filterMap RuleEffect.setting?)
              parsed } := by
  have hsorted : Buckets.ofEffects parsed.suppression (s.effects info parsed resource)
      = .ok { settings := Settings.empty.applyAll
                ((s.effects info parsed resource).filterMap RuleEffect.setting?) } := by
    rw [h]
    exact Buckets.ofEffects_everything _
  have hnone : ∀ e, List.Forall₂ (s.Finds info s.context)
      (parsed.suppression.loadersAt e (s.effects info parsed resource)) [] := by
    intro e
    rw [h]
    cases e <;> exact .nil
  rw [assemble_of_finds hsorted (hnone .post) (hnone .normal) (hnone .pre)]
  simp only [List.nil_append, List.append_nil]

/-- All loaders of a chain are regular. -/
theorem regular_of_resolve {rules : List Rule} (hrules : RuleSet.compile rules = .ok s.rules)
    {r : ImportRequest} {c : Chain} (h : s.resolve r = .ok (.chain c)) :
    ∀ loader ∈ c.loaders, loader.Regular := by
  intro loader hl
  obtain ⟨context, spec, hspec, hwritten | ⟨facts, e, hused⟩⟩ := exists_spec_of_mem_loaders h hl
  · exact (Request.regular_of_mem_parse hwritten).resolved hspec
  · exact (RuleSet.regular_of_mem_exec hrules hused).resolved hspec

/-- The request of a chain leads to the same chain. -/
theorem resolve_compound {rules : List Rule} (hrules : RuleSet.compile rules = .ok s.rules)
    {r : ImportRequest} {c : Chain} (hc : s.resolve r = .ok (.chain c))
    (hmatch : (Request.parse r.context r.request).matchResource = none)
    (hloaders : ∀ loader ∈ c.loaders, s.Recalls r loader) (hbang : '!' ∉ c.resource.toList)
    (hfixed : isVirtual c.resource = false → ∃ data, s.delegate (resourceCall r.info r.context
      c.resource r.resolveOptions) = .ok (.resolved c.resource data))
    (dependencies : List Dependency) :
    ∃ c', s.resolve { r with request := "!!" ++ c.request, dependencies } = .ok (.chain c')
      ∧ c'.loaders = c.loaders ∧ c'.resource = c.resource ∧ c'.settings = c.settings := by
  have hregular := regular_of_resolve hrules hc
  have hsettings : c.settings = Settings.empty.applyAll ((s.effects r.info
      (Request.parse r.context r.request) c.resource).filterMap RuleEffect.setting?) := by
    obtain ⟨inline, resource, data, _, _, hassemble⟩ := resolve_eq_chain hc
    obtain ⟨post, normal, pre, _, _, _, rfl⟩ := assemble_eq_ok hassemble
    rfl
  have hparse : Request.parse r.context ("!!" ++ c.request)
      = ⟨none, .everything, c.loaders.map ResolvedLoader.asWritten, c.resource⟩ :=
    Chain.parse_compound hloaders hregular hbang r.context
  have hinline : s.findLoaders r.info r.context
      (Request.parse r.context ("!!" ++ c.request)).loaders = .ok c.loaders := by
    rw [hparse, findLoaders_eq_ok_iff, List.forall₂_map_left_iff, List.forall₂_same]
    -- loaders of rules are inline now, and sought from another directory than before
    intro loader hl
    exact ResolvedLoader.resolvesTo_asWritten (hregular loader hl) (hloaders loader hl).fixed
      (hloaders loader hl).registered
  have hresource : ∃ data, s.findResource { r with request := "!!" ++ c.request, dependencies }
      = .ok (.resolved c.resource data) := by
    unfold findResource resolveResource
    rw [hparse]
    cases hv : isVirtual c.resource with
    | true => exact ⟨none, rfl⟩
    | false => simpa [hv] using hfixed hv
  obtain ⟨data, hdata⟩ := hresource
  refine ⟨_, resolve_of_assemble hinline hdata
    (assemble_of_everything (by rw [hparse]) c.loaders data), rfl, rfl, ?_⟩
  have heffects : s.effects r.info (Request.parse r.context ("!!" ++ c.request)) c.resource
      = s.effects r.info (Request.parse r.context r.request) c.resource :=
    effects_congr (by rw [hparse, hmatch]) _ _
  rw [hsettings, ← heffects]

end Setup

/-! ## Asking again -/

section Resolver

variable {σ : Type} {s : Setup} {r : ImportRequest}

/-- A chain is given on every bench on which it can be equipped. -/
theorem defaultResolver_eq_data_of_chain {c : Chain} (h : s.resolve r = .ok (.chain c))
    {b : Bench σ} (hb : Bench.equipFailures c.settings b = []) :
    ∃ p g b', defaultResolver s r b
      = (.ok (some (.data ⟨c.descriptor r p g, r.info, r.dependencies⟩)), b') := by
  obtain ⟨d, hd⟩ : ∃ d, (Bench.equip r c (b.asked s r)).1 = .ok d := by
    rw [← failure?_eq_none_iff, Bench.failure?_equip, Bench.equipFailures_asked, hb]
    rfl
  obtain ⟨p, g, rfl⟩ := Bench.equip_eq_ok hd
  refine ⟨p, g, (Bench.equip r c (b.asked s r)).2, ?_⟩
  rw [defaultResolver_of_chain h, hd]
  rfl

/-- What a chain is equipped with is found again on the bench before and on
every bench that keeps it. -/
theorem equipFailures_of_defaultResolver {c : Chain} (h : s.resolve r = .ok (.chain c))
    {b b' : Bench σ} {d : ResolvedImport}
    (hd : (defaultResolver s r b).1 = .ok (some (.data d)))
    (hb : b' = b ∨ (defaultResolver s r b).2.KeptIn b') :
    Bench.equipFailures c.settings b' = [] := by
  rw [defaultResolver_of_chain h] at hd hb
  obtain ⟨equipped, he, _⟩ := map_eq_ok_iff.1 hd
  rcases hb with rfl | hb
  · have hnone := failure?_eq_none_iff.2 ⟨equipped, he⟩
    rw [Bench.failure?_equip, Bench.equipFailures_asked] at hnone
    exact List.head?_eq_none_iff.1 hnone
  · exact Bench.equipFailures_of_keptIn he hb

/-- The request of a chain, marked so that no rule adds a loader, leads to
the same loaders, resource and settings again. -/
theorem compound_of_defaultResolver {rules : List Rule}
    (hrules : RuleSet.compile rules = .ok s.rules)
    (hmatch : (Request.parse r.context r.request).matchResource = none)
    {b : Bench σ} {d : ResolvedImport} (hd : (defaultResolver s r b).1 = .ok (some (.data d)))
    (hloaders : ∀ loader ∈ d.descriptor.loaders, s.Recalls r loader)
    (hbang : '!' ∉ d.descriptor.resource.toList)
    (hfixed : isVirtual d.descriptor.resource = false → ∃ data, s.delegate (resourceCall r.info
      r.context d.descriptor.resource r.resolveOptions)
        = .ok (.resolved d.descriptor.resource data))
    (dependencies : List Dependency) {b' : Bench σ}
    (hb : b' = b ∨ (defaultResolver s r b).2.KeptIn b') :
    ∃ d' b'', defaultResolver s { r with request := "!!" ++ d.descriptor.request, dependencies } b'
        = (.ok (some (.data d')), b'')
      ∧ d'.descriptor.loaders = d.descriptor.loaders
      ∧ d'.descriptor.resource = d.descriptor.resource
      ∧ d'.descriptor.request = d.descriptor.request
      ∧ d'.descriptor.settings = d.descriptor.settings := by
  obtain ⟨c, p, g, hc, rfl⟩ := defaultResolver_eq_data hd
  obtain ⟨c', hc', hl, hr, hs⟩ :=
    Setup.resolve_compound hrules hc hmatch hloaders hbang hfixed dependencies
  have hequip : Bench.equipFailures c'.settings b' = [] := by
    rw [hs]
    exact equipFailures_of_defaultResolver hc hd hb
  obtain ⟨p', g', b'', hgives⟩ := defaultResolver_eq_data_of_chain hc' hequip
  refine ⟨_, b'', hgives, hl, hr, ?_, hs⟩
  show Chain.compound c'.loaders c'.resource = Chain.compound c.loaders c.resource
  rw [hl, hr]

end Resolver

/-- The loaders of every position, where an absolute path stands for
itself. -/
def anchoredSetup : Setup :=
  { layeredSetup with
    delegate := fun call => .ok (.resolved (if Path.isAbsolute call.request.toList then call.request
      else call.context ++ "/" ++ call.request) none) }

/-- A stylesheet with a loader of its own. -/
def sheetRequest : ImportRequest :=
  { context := "/app/src", request := "y-loader?z!./b.css", dependencies := [] }

theorem compile_layeredRules : RuleSet.compile layeredRules = .ok anchoredSetup.rules :=
  RuleSet.compile_of_isSome (by decide +kernel)

/-- A query and an identity are found again, after another request as well. -/
theorem compound_of_sheetRequest :
    ∃ d d' b'', (defaultResolver anchoredSetup sheetRequest builtinBench).1 = .ok (some (.data d))
      ∧ d.descriptor.request
        = "/app/a-loader?x!/app/b-loader??ref--0-1!/app/src/y-loader?z!"
          ++ "/app/c-loader!/app/d-loader!/app/src/./b.css"
      ∧ defaultResolver anchoredSetup
          { sheetRequest with request := "!!" ++ d.descriptor.request, dependencies := [] }
          (defaultResolver anchoredSetup layeredRequest
            (defaultResolver anchoredSetup sheetRequest builtinBench).2).2
        = (.ok (some (.data d')), b'')
      ∧ d'.descriptor.loaders = d.descriptor.loaders
      ∧ d'.descriptor.settings = d.descriptor.settings := by
  have hgives : ((defaultResolver anchoredSetup sheetRequest builtinBench).1.toOption.bind
      fun found => found.bind Resolved.descriptor?).map
        (fun descriptor => (descriptor.loaders, descriptor.resource, descriptor.request))
      = some ([⟨"/app/a-loader", .inline "x", none⟩,
          ⟨"/app/b-loader", .structured [], some "ref--0-1"⟩,
          ⟨"/app/src/y-loader", .inline "z", none⟩, ⟨"/app/c-loader", .absent, none⟩,
          ⟨"/app/d-loader", .absent, none⟩], "/app/src/./b.css",
        "/app/a-loader?x!/app/b-loader??ref--0-1!/app/src/y-loader?z!"
          ++ "/app/c-loader!/app/d-loader!/app/src/./b.css") := by decide +kernel
  obtain ⟨d, hd, hdesc⟩ := Resolved.exists_data_of_descriptor? hgives
  obtain ⟨hl, hdesc⟩ := Prod.mk.inj hdesc
  obtain ⟨hr, hrequest⟩ := Prod.mk.inj hdesc
  have hrecalls : ∀ loader ∈ d.descriptor.loaders, anchoredSetup.Recalls sheetRequest loader := by
    rw [hl]
    simp only [List.forall_mem_cons]
    refine ⟨?_, ?_, ?_, ?_, ?_, by simp⟩
    · exact ⟨by decide, by decide, by rintro _ ⟨⟩; decide, ⟨none, by decide +kernel⟩, nofun⟩
    · exact ⟨by decide, by decide, nofun, ⟨none, by decide +kernel⟩,
        by rintro _ ⟨⟩; decide +kernel⟩
    · exact ⟨by decide, by decide, by rintro _ ⟨⟩; decide, ⟨none, by decide +kernel⟩, nofun⟩
    · exact ⟨by decide, by decide, nofun, ⟨none, by decide +kernel⟩, nofun⟩
    · exact ⟨by decide, by decide, nofun, ⟨none, by decide +kernel⟩, nofun⟩
  obtain ⟨d', b'', hagain, hloaders, -, -, hsettings⟩ :=
    compound_of_defaultResolver compile_layeredRules (by decide) hd hrecalls
      (by rw [hr]; decide) (fun _ => ⟨none, by rw [hr]; decide +kernel⟩) []
      (Or.inr (Bench.defaultResolver_keeps anchoredSetup layeredRequest _))
  exact ⟨d, d', b'', hd, hrequest, hagain, hloaders, hsettings⟩

end ImportChain
