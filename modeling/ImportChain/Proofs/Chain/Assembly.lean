/-
ImportChain.Proofs.Chain.Assembly — what the loader chain of a request is
made of.

`loaders_of_defaultResolver` is the main statement: the chain is
`post ++ inline ++ normal ++ pre`, where the inline loaders are found from
the directory of the request and those of the rules from the directory of
the factory, each where it stands among the effects. A position is empty if
the flag for it is set. Where the resource is, is what the delegate answers,
or the resource stands for itself (`Setup.Locates`).

The resolver is a sequence of steps that may fail, so that a chain it
gives is taken apart by one inversion for each of its three layers:
`assemble_eq_ok`, `resolve_eq_chain` and `defaultResolver_eq_data`.
-/
import ImportChain.Proofs.Chain.Buckets
import ImportChain.Proofs.Factory.Bench
import ImportChain.Proofs.Loader.Resolution
import Mathlib.Data.List.Perm.Basic

namespace ImportChain

open Outcome
open scoped List

/-! ## Texts -/

/-- A list of loaders with a resource is joined by `!`. -/
theorem Request.chainText_eq_intercalate (resource : String) : ∀ loaders : List String,
    chainText loaders resource = "!".intercalate (loaders ++ [resource])
  | [] => String.intercalate_singleton.symm
  | loader :: loaders => by
      have ih := chainText_eq_intercalate resource loaders
      rw [List.cons_append, String.intercalate_cons_of_ne_nil (by simp), ← ih]
      rfl

theorem Chain.compound_eq_intercalate (loaders : List ResolvedLoader) (resource : String) :
    compound loaders resource
      = "!".intercalate (loaders.map ResolvedLoader.toIdent ++ [resource]) :=
  Request.chainText_eq_intercalate resource _

/-! ## Chains -/

namespace Setup

/-- Whether a loader is found from a directory as a given one. -/
def Finds (s : Setup) (info : ContextInfo) (context : String) (spec : LoaderSpec)
    (loader : ResolvedLoader) : Prop :=
  spec.ResolvesTo s.delegate s.rules info context loaderOptions loader

/-- Where the resource of a request is. -/
def findResource (s : Setup) (r : ImportRequest) : Except ResolutionError Resolution :=
  resolveResource s.delegate r.info r.context (Request.parse r.context r.request).resource
    r.resolveOptions

/-- A resource that stands for itself: none at all, or a bare query. -/
def StandsForItself (resource : String) : Prop := resource = "" ∨ ∃ query, resource = "?" ++ query

theorem isVirtual_iff {resource : String} :
    isVirtual resource = true ↔ StandsForItself resource := by
  unfold isVirtual StandsForItself
  cases h : resource.toList with
  | nil => simp [String.toList_eq_nil_iff.1 h]
  | cons c rest =>
    have hne : resource ≠ "" := mt String.toList_eq_nil_iff.2 (by simp [h])
    have hquery : (∃ query, resource = "?" ++ query) ↔ c = '?' := by
      constructor
      · rintro ⟨query, rfl⟩
        rw [String.toList_append] at h
        exact (List.cons.inj h).1.symm
      · rintro rfl
        exact ⟨String.ofList rest, by rw [← String.toList_inj, h]; simp⟩
    simp [hne, hquery]

/-- What there is to say of where the resource of a request is: it stands for
itself, or the delegate answers for it. -/
inductive Locates (s : Setup) (r : ImportRequest) : Except ResolutionError Resolution → Prop
  | itself {resource : String} (written : (Request.parse r.context r.request).resource = resource)
      (h : StandsForItself resource) : Locates s r (.ok (.resolved resource none))
  | asked {resource : String} {answer : Except ResolutionError Resolution}
      (written : (Request.parse r.context r.request).resource = resource)
      (h : ¬ StandsForItself resource)
      (answered : s.delegate ⟨.normal, r.info, r.context, resource, r.resolveOptions⟩ = answer) :
      Locates s r answer

theorem findResource_eq_iff_locates {s : Setup} {r : ImportRequest}
    {answer : Except ResolutionError Resolution} :
    s.findResource r = answer ↔ s.Locates r answer := by
  unfold findResource resolveResource resourceCall
  constructor
  · rintro rfl
    by_cases h : isVirtual (Request.parse r.context r.request).resource = true
    · rw [if_pos h]
      exact .itself rfl (isVirtual_iff.1 h)
    · rw [if_neg h]
      exact .asked rfl (mt isVirtual_iff.2 h) rfl
  · rintro (⟨rfl, h⟩ | ⟨rfl, h, rfl⟩)
    · rw [if_pos (isVirtual_iff.2 h)]
    · rw [if_neg (mt isVirtual_iff.1 h)]

theorem Locates.unique {s : Setup} {r : ImportRequest}
    {answer answer' : Except ResolutionError Resolution} (h : s.Locates r answer)
    (h' : s.Locates r answer') : answer = answer' :=
  (findResource_eq_iff_locates.2 h).symm.trans (findResource_eq_iff_locates.2 h')

/-- What the rules contribute to a request whose resource is found. -/
def effects (s : Setup) (info : ContextInfo) (parsed : Request) (resource : String) :
    List RuleEffect :=
  s.rules.exec (Chain.factsOf parsed resource info)

theorem findLoaders_eq_ok_iff {s : Setup} {info : ContextInfo} {context : String}
    {specs : List LoaderSpec} {loaders : List ResolvedLoader} :
    s.findLoaders info context specs = .ok loaders
      ↔ List.Forall₂ (s.Finds info context) specs loaders :=
  resolveLoaders_eq_ok_iff

/-- What rules contribute depends on a request only through its
match-resource. -/
theorem effects_congr {s : Setup} {parsed parsed' : Request}
    (h : parsed.matchResource = parsed'.matchResource) (info : ContextInfo) (resource : String) :
    s.effects info parsed resource = s.effects info parsed' resource := by
  unfold effects Chain.factsOf Chain.matched
  rw [h]

/-- A chain is assembled from the loaders of the three positions. -/
theorem assemble_eq_ok {s : Setup} {info : ContextInfo} {parsed : Request}
    {inline : List ResolvedLoader} {resource : String} {data : Option Json} {c : Chain}
    (h : s.assemble info parsed inline resource data = .ok c) :
    ∃ post normal pre,
      List.Forall₂ (s.Finds info s.context)
        (parsed.suppression.loadersAt .post (s.effects info parsed resource)) post
      ∧ List.Forall₂ (s.Finds info s.context)
        (parsed.suppression.loadersAt .normal (s.effects info parsed resource)) normal
      ∧ List.Forall₂ (s.Finds info s.context)
        (parsed.suppression.loadersAt .pre (s.effects info parsed resource)) pre
      ∧ c = { loaders := post ++ inline ++ normal ++ pre, inline, resource, resourceData := data
              settings := Settings.empty.applyAll
                ((s.effects info parsed resource).filterMap RuleEffect.setting?)
              parsed } := by
  unfold assemble at h
  obtain ⟨b, hb, h⟩ := bind_eq_ok_iff.1 h
  obtain ⟨post, hpost, h⟩ := bind_eq_ok_iff.1 h
  obtain ⟨normal, hnormal, h⟩ := bind_eq_ok_iff.1 h
  obtain ⟨pre, hpre, h⟩ := bind_eq_ok_iff.1 h
  cases h
  obtain ⟨hset, hbpost, hbnormal, hbpre⟩ := Buckets.ofEffects_eq_ok hb
  rw [findLoaders_eq_ok_iff] at hpost hnormal hpre
  rw [hbpost] at hpost
  rw [hbnormal] at hnormal
  rw [hbpre] at hpre
  refine ⟨post, normal, pre, hpost, hnormal, hpre, ?_⟩
  rw [hset]
  rfl

/-- A chain is assembled wherever the effects can be sorted and the loaders
of the three positions are found. -/
theorem assemble_of_finds {s : Setup} {info : ContextInfo} {parsed : Request} {resource : String}
    {b : Buckets} {post normal pre : List ResolvedLoader}
    (hb : Buckets.ofEffects parsed.suppression (s.effects info parsed resource) = .ok b)
    (hpost : List.Forall₂ (s.Finds info s.context)
      (parsed.suppression.loadersAt .post (s.effects info parsed resource)) post)
    (hnormal : List.Forall₂ (s.Finds info s.context)
      (parsed.suppression.loadersAt .normal (s.effects info parsed resource)) normal)
    (hpre : List.Forall₂ (s.Finds info s.context)
      (parsed.suppression.loadersAt .pre (s.effects info parsed resource)) pre)
    (inline : List ResolvedLoader) (data : Option Json) :
    s.assemble info parsed inline resource data
      = .ok { loaders := post ++ inline ++ normal ++ pre, inline, resource, resourceData := data
              settings := Settings.empty.applyAll
                ((s.effects info parsed resource).filterMap RuleEffect.setting?)
              parsed } := by
  obtain ⟨hset, hbpost, hbnormal, hbpre⟩ := Buckets.ofEffects_eq_ok hb
  rw [← hbpost] at hpost
  rw [← hbnormal] at hnormal
  rw [← hbpre] at hpre
  refine bind_eq_ok_iff.2 ⟨b, hb, ?_⟩
  refine bind_eq_ok_iff.2 ⟨post, findLoaders_eq_ok_iff.2 hpost, ?_⟩
  refine bind_eq_ok_iff.2 ⟨normal, findLoaders_eq_ok_iff.2 hnormal, ?_⟩
  refine bind_eq_ok_iff.2 ⟨pre, findLoaders_eq_ok_iff.2 hpre, ?_⟩
  rw [hset]
  rfl

/-- A request that leads to a chain has its inline loaders and its resource
found. -/
theorem resolve_eq_chain {s : Setup} {r : ImportRequest} {c : Chain}
    (h : s.resolve r = .ok (.chain c)) :
    ∃ inline resource data,
      List.Forall₂ (s.Finds r.info r.context) (Request.parse r.context r.request).loaders inline
      ∧ s.findResource r = .ok (.resolved resource data)
      ∧ s.assemble r.info (Request.parse r.context r.request) inline resource data = .ok c := by
  unfold resolve at h
  obtain ⟨inline, hinline, h⟩ := bind_eq_ok_iff.1 h
  obtain ⟨found, hfound, h⟩ := bind_eq_ok_iff.1 h
  rw [findLoaders_eq_ok_iff] at hinline
  rw [mapError_eq_ok_iff] at hfound
  cases found with
  | ignored => cases h
  | resolved resource data =>
    obtain ⟨c', hc, he⟩ := map_eq_ok_iff.1 h
    cases he
    exact ⟨inline, resource, data, hinline, hfound, hc⟩

/-- Every loader of a chain is found for one that the request writes, or
that a rule uses. -/
theorem exists_spec_of_mem_loaders {s : Setup} {r : ImportRequest} {c : Chain}
    (h : s.resolve r = .ok (.chain c)) {loader : ResolvedLoader} (hl : loader ∈ c.loaders) :
    ∃ context spec, s.Finds r.info context spec loader
      ∧ (spec ∈ (Request.parse r.context r.request).loaders
        ∨ ∃ facts e, .use spec e ∈ s.rules.exec facts) := by
  obtain ⟨inline, resource, data, hinline, -, hassemble⟩ := resolve_eq_chain h
  obtain ⟨post, normal, pre, hpost, hnormal, hpre, rfl⟩ := assemble_eq_ok hassemble
  have hrule : ∀ {e : Enforce} {found : List ResolvedLoader},
      List.Forall₂ (s.Finds r.info s.context)
        ((Request.parse r.context r.request).suppression.loadersAt e
          (s.effects r.info (Request.parse r.context r.request) resource)) found →
      loader ∈ found →
        ∃ spec, s.Finds r.info s.context spec loader
          ∧ ∃ facts e, .use spec e ∈ s.rules.exec facts := by
    intro e found hfound hmem
    obtain ⟨spec, hs, hspec⟩ := exists_resolvesTo_of_mem hfound hmem
    exact ⟨spec, hspec, _, e, Suppression.use_mem_of_mem_loadersAt hs⟩
  simp only [List.mem_append] at hl
  rcases hl with ((hl | hl) | hl) | hl
  · obtain ⟨spec, hspec, hused⟩ := hrule hpost hl
    exact ⟨s.context, spec, hspec, Or.inr hused⟩
  · obtain ⟨spec, hs, hspec⟩ := exists_resolvesTo_of_mem hinline hl
    exact ⟨r.context, spec, hspec, Or.inl hs⟩
  · obtain ⟨spec, hspec, hused⟩ := hrule hnormal hl
    exact ⟨s.context, spec, hspec, Or.inr hused⟩
  · obtain ⟨spec, hspec, hused⟩ := hrule hpre hl
    exact ⟨s.context, spec, hspec, Or.inr hused⟩

/-- A request whose inline loaders and resource are found leads to the chain
that is assembled from them. -/
theorem resolve_of_assemble {s : Setup} {r : ImportRequest} {inline : List ResolvedLoader}
    {resource : String} {data : Option Json} {c : Chain}
    (hinline : s.findLoaders r.info r.context (Request.parse r.context r.request).loaders
      = .ok inline)
    (hresource : s.findResource r = .ok (.resolved resource data))
    (hc : s.assemble r.info (Request.parse r.context r.request) inline resource data = .ok c) :
    s.resolve r = .ok (.chain c) := by
  refine bind_eq_ok_iff.2 ⟨inline, hinline, ?_⟩
  refine bind_eq_ok_iff.2 ⟨.resolved resource data, mapError_eq_ok_iff.2 hresource, ?_⟩
  exact map_eq_ok_iff.2 ⟨c, hc, rfl⟩

/-- A request is ignored if its resource is. -/
theorem resolve_eq_ignored {s : Setup} {r : ImportRequest} {standIn : RawModule}
    (h : s.resolve r = .ok (.ignored standIn)) :
    s.findResource r = .ok .ignored ∧ standIn = .ignored r.context r.request := by
  unfold resolve at h
  obtain ⟨inline, -, h⟩ := bind_eq_ok_iff.1 h
  obtain ⟨found, hfound, h⟩ := bind_eq_ok_iff.1 h
  rw [mapError_eq_ok_iff] at hfound
  cases found with
  | ignored =>
    cases h
    exact ⟨hfound, rfl⟩
  | resolved resource data =>
    obtain ⟨c, -, hc⟩ := map_eq_ok_iff.1 h
    cases hc

end Setup

/-- The chain of a request for which data is given: `loaders` are those that
run. A position is empty if its flag is set, and each loader of a rule that is
not suppressed stands among them once. -/
theorem loaders_of_defaultResolver {σ : Type} {s : Setup} {r : ImportRequest} {b : Bench σ}
    {d : ResolvedImport} (h : (defaultResolver s r b).1 = .ok (some (.data d))) :
    ∃ parsed effects post inline normal pre,
      parsed = Request.parse r.context r.request
      ∧ s.Locates r (.ok (.resolved d.descriptor.resource d.descriptor.resourceResolveData))
      ∧ effects = s.rules.exec (Chain.factsOf parsed d.descriptor.resource r.info)
      ∧ List.Forall₂ (s.Finds r.info r.context) parsed.loaders inline
      ∧ List.Forall₂ (s.Finds r.info s.context)
        (if parsed.suppression.dropsPost then [] else
          effects.filterMap (RuleEffect.loaderAt? .post)) post
      ∧ List.Forall₂ (s.Finds r.info s.context)
        (if parsed.suppression.dropsNormal then [] else
          effects.filterMap (RuleEffect.loaderAt? .normal)) normal
      ∧ List.Forall₂ (s.Finds r.info s.context)
        (if parsed.suppression.dropsPre then [] else
          effects.filterMap (RuleEffect.loaderAt? .pre)) pre
      ∧ d.descriptor.loaders = post ++ inline ++ normal ++ pre
      ∧ (∃ added, List.Forall₂ (s.Finds r.info s.context)
          (effects.filterMap parsed.suppression.unsuppressed?) added
        ∧ d.descriptor.loaders.Perm (inline ++ added))
      ∧ d.descriptor.request
        = "!".intercalate (d.descriptor.loaders.map ResolvedLoader.toIdent
            ++ [d.descriptor.resource])
      ∧ d.descriptor.userRequest
        = parsed.matchResource.elim "" (· ++ "!=!")
          ++ "!".intercalate (inline.map ResolvedLoader.toIdent ++ [d.descriptor.resource]) := by
  obtain ⟨c, p, g, hc, rfl⟩ := defaultResolver_eq_data h
  obtain ⟨inline, resource, data, hinline, hresource, hassemble⟩ := Setup.resolve_eq_chain hc
  obtain ⟨post, normal, pre, hpost, hnormal, hpre, rfl⟩ := Setup.assemble_eq_ok hassemble
  refine ⟨_, _, post, inline, normal, pre, rfl, Setup.findResource_eq_iff_locates.1 hresource, rfl,
    hinline, hpost, hnormal, hpre, rfl, ?_, Chain.compound_eq_intercalate _ _, ?_⟩
  · -- the three positions hold, in another order, what the rules add
    obtain ⟨added, hadded, hperm⟩ := List.perm_comp_forall₂
      (Suppression.perm_loadersAt _ _).symm (List.rel_append (List.rel_append hpost hnormal) hpre)
    refine ⟨added, hadded, ?_⟩
    calc post ++ inline ++ normal ++ pre
        _ = post ++ inline ++ (normal ++ pre) := List.append_assoc _ _ _
        _ ~ inline ++ post ++ (normal ++ pre) := List.perm_append_comm.append_right _
        _ = inline ++ (post ++ normal ++ pre) := by simp only [List.append_assoc]
        _ ~ inline ++ added := hperm.symm.append_left inline
  · show Request.matchText _ ++ Chain.compound inline resource = _
    rw [Chain.compound_eq_intercalate]
    cases (Request.parse r.context r.request).matchResource <;> rfl

/-- Loaders at each position, two of them last. -/
def layeredRules : List Rule :=
  [⟨{ test := some (.regex "\\.css$"), enforce := some .post,
      uses := some (.many [.request "a-loader?x", .loader "b-loader" (some (.obj [])) none]) },
    [], []⟩,
   ⟨{ loader := some "c-loader", moduleType := some "json" }, [], []⟩,
   ⟨{ loader := some "d-loader", enforce := some .pre }, [], []⟩]

/-- Everything is found below the directory that it is sought from. -/
def layeredSetup : Setup :=
  { context := "/app"
    rules := (RuleSet.compile layeredRules).toOption.getD .empty
    delegate := fun call => .ok (.resolved (call.context ++ "/" ++ call.request) none) }

/-- A script taken for a stylesheet. -/
def layeredRequest : ImportRequest :=
  { context := "/app/src", request := "./m.css!=!x-loader!y-loader?z!./b.js", dependencies := [] }

/-- The built-in parsers and generators. -/
def builtinBench : Bench Unit :=
  { world := (), parsers := Registry.parsers.withBuiltins
    generators := Registry.generators.withBuiltins }

/-- The same request with a mark behind its match-resource. -/
def markedRequest (mark : String) : ImportRequest :=
  { layeredRequest with request := "./m.css!=!" ++ mark ++ "x-loader!y-loader?z!./b.js" }

/-- The descriptor of data. -/
def Resolved.descriptor? : Resolved → Option ModuleDescriptor
  | .data d => some d.descriptor
  | .module _ => none

theorem Resolved.exists_data_of_descriptor? {α : Type}
    {result : Except FactoryError (Option Resolved)} {f : ModuleDescriptor → α} {a : α}
    (h : (result.toOption.bind fun found => found.bind descriptor?).map f = some a) :
    ∃ d, result = .ok (some (.data d)) ∧ f d.descriptor = a := by
  cases result with
  | error e => cases h
  | ok found =>
    cases found with
    | none => cases h
    | some found =>
      cases found with
      | module m => cases h
      | data d => exact ⟨d, rfl, Option.some.inj h⟩

/-- The mark `!` leaves of the rule loaders those that run last, and `!!` leaves
none. -/
theorem loaders_of_layeredRequest :
    (∃ d inline added,
      (defaultResolver layeredSetup layeredRequest builtinBench).1 = .ok (some (.data d))
      ∧ d.descriptor.loaders.map ResolvedLoader.toIdent
        = ["/app/a-loader?x", "/app/b-loader??ref--0-1", "/app/src/x-loader", "/app/src/y-loader?z",
          "/app/c-loader", "/app/d-loader"]
      ∧ List.Forall₂ (layeredSetup.Finds {} "/app/src")
        [⟨"x-loader", .absent, none⟩, ⟨"y-loader", .inline "z", none⟩] inline
      ∧ d.descriptor.loaders.Perm (inline ++ added))
    ∧ (∃ d post inline,
      (defaultResolver layeredSetup (markedRequest "!") builtinBench).1 = .ok (some (.data d))
      ∧ d.descriptor.loaders.map ResolvedLoader.toIdent
        = ["/app/a-loader?x", "/app/b-loader??ref--0-1", "/app/src/x-loader", "/app/src/y-loader?z"]
      ∧ List.Forall₂ (layeredSetup.Finds {} "/app")
        [⟨"a-loader", .inline "x", none⟩, ⟨"b-loader", .structured [], some "ref--0-1"⟩] post
      ∧ d.descriptor.loaders = post ++ inline)
    ∧ ∃ d inline,
      (defaultResolver layeredSetup (markedRequest "!!") builtinBench).1 = .ok (some (.data d))
      ∧ d.descriptor.loaders.map ResolvedLoader.toIdent = ["/app/src/x-loader", "/app/src/y-loader?z"]
      ∧ List.Forall₂ (layeredSetup.Finds {} "/app/src")
        [⟨"x-loader", .absent, none⟩, ⟨"y-loader", .inline "z", none⟩] inline
      ∧ d.descriptor.loaders = inline := by
  have hgives (r : ImportRequest) (idents : List String)
      (h : ((defaultResolver layeredSetup r builtinBench).1.toOption.bind
          fun found => found.bind Resolved.descriptor?).map
            (fun descriptor =>
              (descriptor.loaders.map ResolvedLoader.toIdent, descriptor.resource))
        = some (idents, "/app/src/./b.js")) := Resolved.exists_data_of_descriptor? h
  refine ⟨?_, ?_, ?_⟩
  · obtain ⟨d, hd, hdesc⟩ := hgives layeredRequest ["/app/a-loader?x", "/app/b-loader??ref--0-1",
      "/app/src/x-loader", "/app/src/y-loader?z", "/app/c-loader", "/app/d-loader"]
      (by decide +kernel)
    obtain ⟨_, _, _, inline, _, _, rfl, _, _, hinline, _, _, _, _, ⟨added, _, hperm⟩, _⟩ :=
      loaders_of_defaultResolver hd
    exact ⟨d, inline, added, hd, (Prod.mk.inj hdesc).1, hinline, hperm⟩
  · obtain ⟨d, hd, hdesc⟩ := hgives (markedRequest "!") ["/app/a-loader?x",
      "/app/b-loader??ref--0-1", "/app/src/x-loader", "/app/src/y-loader?z"] (by decide +kernel)
    obtain ⟨hidents, hresource⟩ := Prod.mk.inj hdesc
    obtain ⟨_, _, post, inline, normal, pre, rfl, _, rfl, _, hpost, hnormal, hpre, hloaders, _⟩ :=
      loaders_of_defaultResolver hd
    have hlast : (layeredSetup.effects {} (Request.parse "/app/src" (markedRequest "!").request)
        "/app/src/./b.js").filterMap (RuleEffect.loaderAt? .post)
          = [⟨"a-loader", .inline "x", none⟩, ⟨"b-loader", .structured [], some "ref--0-1"⟩] := by
      decide +kernel
    rw [hresource] at hpost
    cases hnormal
    cases hpre
    refine ⟨d, post, inline, hd, hidents, hlast ▸ hpost, ?_⟩
    rw [hloaders, List.append_nil, List.append_nil]
  · obtain ⟨d, hd, hdesc⟩ := hgives (markedRequest "!!") ["/app/src/x-loader", "/app/src/y-loader?z"]
      (by decide +kernel)
    obtain ⟨_, _, post, inline, normal, pre, rfl, _, rfl, hinline, hpost, hnormal, hpre, hloaders,
      _⟩ := loaders_of_defaultResolver hd
    cases hpost
    cases hnormal
    cases hpre
    refine ⟨d, inline, hd, (Prod.mk.inj hdesc).1, hinline, ?_⟩
    rw [hloaders, List.nil_append, List.append_nil, List.append_nil]

end ImportChain
