/-
ImportChain.Proofs.Chain.Failure — which failure of a request is reported.

A request goes through stages in one fixed order (`Stage.all`): the inline
loaders, the resource, malformed options of the rules, the loaders of `post`,
of `normal` and of `pre`, the parser and the generator. Of each list of
loaders the references come first. `Fails` says how a stage fails, each by
itself: by what the delegate answers, what the rules register, and what the
creators decide. What a request suppresses is left out beforehand, and the
stages after the resource have nothing to fail at if it is ignored.

`defaultResolver_first_failure`: the first stage that fails is reported, and
if none does the resolver succeeds.

`Setup.failures` lists the failures of all stages. The list goes on behind its
first entry, as if later steps were still taken; that is what makes "the
first" mean something. `failure?_defaultResolver_congr`: what is suppressed
cannot change the failure of a request.
-/
import ImportChain.Proofs.Chain.Assembly
import ImportChain.Proofs.Factory.Creators
import ImportChain.Proofs.Loader.Search

namespace ImportChain

open Outcome

namespace Setup

variable {σ : Type}

/-! ## Stages -/

/-- The stages of a request whose resource is found at which it may fail. -/
inductive RuleStage where
  /-- Options that rules give to loaders. -/
  | options
  /-- References of the loaders at a position. -/
  | references (position : Enforce)
  | loaders (position : Enforce)
  | parser
  | generator
  deriving Repr, DecidableEq

/-- The stages of a request at which it may fail. -/
inductive Stage where
  | inlineReferences
  | inlineLoaders
  | resource
  /-- A stage that comes only after a resource that is found. -/
  | found (stage : RuleStage)
  deriving Repr, DecidableEq

/-- The stages of a request whose resource is found, in the order in which their
failures count. -/
def RuleStage.all : List RuleStage :=
  [.options, .references .post, .loaders .post, .references .normal, .loaders .normal,
    .references .pre, .loaders .pre, .parser, .generator]

/-- All stages, in the order in which their failures count. -/
def Stage.all : List Stage :=
  [.inlineReferences, .inlineLoaders, .resource] ++ RuleStage.all.map .found

/-- How the references of loaders fail: as the earliest that leads nowhere. -/
def ReferencesFail (s : Setup) (specs : List LoaderSpec) (e : FactoryError) : Prop :=
  ∃ spec, Earliest (LoaderSpec.Dangling s.rules) specs spec
    ∧ ∃ ident, spec.RefersTo ident ∧ s.rules.options? ident = none ∧ e = .optionLookup ident

/-- How the search for loaders from a directory fails: as that for the earliest
one which the delegate does not find. -/
def LoadersFail (s : Setup) (info : ContextInfo) (context : String) (specs : List LoaderSpec)
    (e : FactoryError) : Prop :=
  ∃ spec, Earliest (fun spec => ¬ spec.Found s.delegate info context loaderOptions) specs spec
    ∧ ∃ error, spec.FailsAs s.delegate info context loaderOptions error ∧ e = .resolution error

/-- A loader with malformed options at a position that is not suppressed. -/
def Unusable (suppression : Suppression) (effect : RuleEffect) : Prop :=
  ∃ loader kind position, effect = .malformedUse loader kind position
    ∧ ¬ suppression.Suppresses position

/-- What effects set. -/
def settingsOf (effects : List RuleEffect) : Settings :=
  Settings.empty.applyAll (effects.filterMap RuleEffect.setting?)

/-- The module type that effects set. -/
def typeOf (effects : List RuleEffect) : String :=
  ((settingsOf effects).str? "type").getD defaultModuleType

/-- How a stage fails for a resource, given what the rules contribute to it. The
generator is asked for in the world that the parser leaves. -/
inductive RuleFails (s : Setup) (info : ContextInfo) (suppression : Suppression)
    (effects : List RuleEffect) (b : Bench σ) : RuleStage → FactoryError → Prop
  | options {loader kind : String} {position : Enforce}
      (first : Earliest (Unusable suppression) effects (.malformedUse loader kind position)) :
      RuleFails s info suppression effects b .options (.malformedOptions loader kind)
  | references {position : Enforce} {e : FactoryError}
      (unsuppressed : ¬ suppression.Suppresses position)
      (h : s.ReferencesFail (effects.filterMap (RuleEffect.loaderAt? position)) e) :
      RuleFails s info suppression effects b (.references position) e
  | loaders {position : Enforce} {e : FactoryError}
      (unsuppressed : ¬ suppression.Suppresses position)
      (h : s.LoadersFail info s.context (effects.filterMap (RuleEffect.loaderAt? position)) e) :
      RuleFails s info suppression effects b (.loaders position) e
  | parser {e : FactoryError} {left : σ}
      (h : b.parsers.Answers (typeOf effects) ((settingsOf effects).get? "parser") b.world
        (.error e) left) :
      RuleFails s info suppression effects b .parser e
  | generator {parser : Except FactoryError (Shared Instance)} {e : FactoryError} {seen left : σ}
      (asked : b.parsers.Answers (typeOf effects) ((settingsOf effects).get? "parser") b.world
        parser seen)
      (h : b.generators.Answers (typeOf effects) ((settingsOf effects).get? "generator") seen
        (.error e) left) :
      RuleFails s info suppression effects b .generator e

/-- How a stage of a request fails. -/
inductive Fails (s : Setup) (r : ImportRequest) (b : Bench σ) : Stage → FactoryError → Prop
  | inlineReferences {e : FactoryError}
      (h : s.ReferencesFail (Request.parse r.context r.request).loaders e) :
      Fails s r b .inlineReferences e
  | inlineLoaders {e : FactoryError}
      (h : s.LoadersFail r.info r.context (Request.parse r.context r.request).loaders e) :
      Fails s r b .inlineLoaders e
  | resource {error : ResolutionError} (h : s.Locates r (.error error)) :
      Fails s r b .resource (.resolution error)
  | found {resource : String} {data : Option Json} {stage : RuleStage} {e : FactoryError}
      (there : s.Locates r (.ok (.resolved resource data)))
      (h : s.RuleFails r.info (Request.parse r.context r.request).suppression
        (s.effects r.info (Request.parse r.context r.request) resource) b stage e) :
      Fails s r b (.found stage) e

/-! ## What may go wrong -/

/-- The failures of the loaders that are sought from a directory. -/
def findFailures (s : Setup) (info : ContextInfo) (context : String) (specs : List LoaderSpec) :
    List FactoryError :=
  loaderFailures s.delegate s.rules info context loaderOptions specs

/-- The effects of the rules on a resource that a request does not
suppress. -/
def countedEffects (s : Setup) (info : ContextInfo) (parsed : Request) (resource : String) :
    List RuleEffect :=
  parsed.suppression.counted (s.effects info parsed resource)

/-- The failures of the loaders that rules add. -/
def effectFailures (s : Setup) (info : ContextInfo) (effects : List RuleEffect) :
    List FactoryError :=
  effects.filterMap RuleEffect.malformed?
    ++ [Enforce.post, .normal, .pre].flatMap fun e =>
        s.findFailures info s.context (effects.filterMap (RuleEffect.loaderAt? e))

/-- The failures of a request up to its chain. -/
def resolveFailures (s : Setup) (r : ImportRequest) : List FactoryError :=
  let parsed := Request.parse r.context r.request
  s.findFailures r.info r.context parsed.loaders
    ++ match s.findResource r with
      | .error e => [.resolution e]
      | .ok .ignored => []
      | .ok (.resolved resource _) =>
        s.effectFailures r.info (s.countedEffects r.info parsed resource)

/-- The failures of a request, in the order in which they count. -/
def failures (s : Setup) (r : ImportRequest) (b : Bench σ) : List FactoryError :=
  let parsed := Request.parse r.context r.request
  s.resolveFailures r
    ++ match s.findResource r with
      | .ok (.resolved resource _) =>
        let effects := s.countedEffects r.info parsed resource
        b.equipFailures (Settings.empty.applyAll (effects.filterMap RuleEffect.setting?))
      | _ => []

/-! ## What does go wrong -/

theorem failure?_findLoaders (s : Setup) (info : ContextInfo) (context : String)
    (specs : List LoaderSpec) :
    failure? (s.findLoaders info context specs) = (s.findFailures info context specs).head? :=
  failure?_resolveLoaders specs

theorem failure?_assemble (s : Setup) (info : ContextInfo) (parsed : Request)
    (inline : List ResolvedLoader) (resource : String) (data : Option Json) :
    failure? (s.assemble info parsed inline resource data)
      = (s.effectFailures info (s.countedEffects info parsed resource)).head? := by
  unfold assemble effectFailures
  refine failure?_bind_eq_head? (Buckets.failure?_ofEffects _ _) fun buckets hb => ?_
  obtain ⟨-, hpost, hnormal, hpre⟩ := Buckets.ofEffects_eq_ok hb
  simp only [countedEffects, Suppression.filterMap_loaderAt?_counted, List.flatMap_cons,
    List.flatMap_nil]
  rw [hpost, hnormal, hpre]
  refine failure?_bind_eq_head? (s.failure?_findLoaders _ _ _) fun post _ => ?_
  refine failure?_bind_eq_head? (s.failure?_findLoaders _ _ _) fun normal _ => ?_
  exact failure?_bind_eq_head? (s.failure?_findLoaders _ _ _) fun pre _ => rfl

theorem failure?_resolve (s : Setup) (r : ImportRequest) :
    failure? (s.resolve r) = (s.resolveFailures r).head? := by
  unfold resolve resolveFailures
  refine failure?_bind_eq_head? (s.failure?_findLoaders _ _ _) fun inline _ => ?_
  show failure? ((s.findResource r).mapError FactoryError.resolution >>= _) = _
  cases s.findResource r with
  | error e => rfl
  | ok found =>
    cases found with
    | ignored => rfl
    | resolved resource data =>
      show failure? ((s.assemble r.info _ inline resource data).map ChainResult.chain) = _
      rw [failure?_map]
      exact s.failure?_assemble _ _ _ _ _

theorem failure?_defaultResolver (s : Setup) (r : ImportRequest) (b : Bench σ) :
    failure? (defaultResolver s r b).1 = (s.failures r b).head? := by
  have hresolve := s.failure?_resolve r
  unfold failures
  rw [List.head?_append, ← hresolve]
  cases hs : s.resolve r with
  | error e =>
    rw [defaultResolver_of_error hs]
    rfl
  | ok found =>
    cases found with
    | ignored standIn =>
      rw [defaultResolver_of_ignored hs, (resolve_eq_ignored hs).1]
      rfl
    | chain c =>
      obtain ⟨inline, resource, data, -, hresource, hassemble⟩ := resolve_eq_chain hs
      obtain ⟨_, _, _, -, -, -, hc⟩ := assemble_eq_ok hassemble
      have hsettings : c.settings = Settings.empty.applyAll ((s.countedEffects r.info
          (Request.parse r.context r.request) resource).filterMap RuleEffect.setting?) := by
        rw [hc, countedEffects, Suppression.filterMap_setting?_counted]
      rw [defaultResolver_of_chain hs, failure?_map, Bench.failure?_equip,
        Bench.equipFailures_asked, hresource, hsettings]
      rfl

/-- What the resolver gives, if anything, is a stand-in for an ignored
resource and data for one that is found. -/
theorem defaultResolver_eq_ok {s : Setup} {r : ImportRequest} {b : Bench σ} {v : Option Resolved}
    (h : (defaultResolver s r b).1 = .ok v) :
    (s.findResource r = .ok .ignored ∧ v = some (.module (.raw (.ignored r.context r.request))))
      ∨ (∃ resource data, s.findResource r = .ok (.resolved resource data))
        ∧ ∃ d, v = some (.data d) := by
  cases hs : s.resolve r with
  | error e =>
    rw [defaultResolver_of_error hs] at h
    cases h
  | ok found =>
    cases found with
    | ignored standIn =>
      obtain ⟨hresource, rfl⟩ := resolve_eq_ignored hs
      rw [defaultResolver_of_ignored hs] at h
      cases h
      exact .inl ⟨hresource, rfl⟩
    | chain c =>
      obtain ⟨_, resource, data, -, hresource, -⟩ := resolve_eq_chain hs
      rw [defaultResolver_of_chain hs] at h
      obtain ⟨d, -, rfl⟩ := map_eq_ok_iff.1 h
      exact .inr ⟨⟨resource, data, hresource⟩, d, rfl⟩

/-! ## Stage by stage -/

section Stages

variable {s : Setup} {r : ImportRequest} {b : Bench σ} {info : ContextInfo} {context : String}
  {suppression : Suppression} {effects : List RuleEffect} {specs : List LoaderSpec}
  {e : FactoryError}

/-- The failures of a stage for a resource that is found. -/
def ruleStageFailures (s : Setup) (info : ContextInfo) (suppression : Suppression)
    (effects : List RuleEffect) (b : Bench σ) : RuleStage → List FactoryError
  | .options => (suppression.counted effects).filterMap RuleEffect.malformed?
  | .references position =>
    (suppression.loadersAt position effects).filterMap (LoaderSpec.lookupFailure? s.rules)
  | .loaders position => (suppression.loadersAt position effects).filterMap
      (LoaderSpec.searchFailure? s.delegate info s.context loaderOptions)
  | .parser =>
    (failure? (Bench.parser (typeOf effects) ((settingsOf effects).get? "parser") b).1).toList
  | .generator =>
    let asked := Bench.parser (typeOf effects) ((settingsOf effects).get? "parser") b
    (failure? (Bench.generator (typeOf effects) ((settingsOf effects).get? "generator")
      asked.2).1).toList

/-- The failures of a stage. -/
def stageFailures (s : Setup) (r : ImportRequest) (b : Bench σ) : Stage → List FactoryError
  | .inlineReferences => (Request.parse r.context r.request).loaders.filterMap
      (LoaderSpec.lookupFailure? s.rules)
  | .inlineLoaders => (Request.parse r.context r.request).loaders.filterMap
      (LoaderSpec.searchFailure? s.delegate r.info r.context loaderOptions)
  | .resource => (failure? (s.findResource r)).toList.map .resolution
  | .found stage =>
    match s.findResource r with
    | .ok (.resolved resource _) =>
      s.ruleStageFailures r.info (Request.parse r.context r.request).suppression
        (s.effects r.info (Request.parse r.context r.request) resource) b stage
    | _ => []

theorem head?_lookupFailures :
    (specs.filterMap (LoaderSpec.lookupFailure? s.rules)).head? = some e
      ↔ s.ReferencesFail specs e := by
  rw [List.head?_filterMap,
    findSome?_eq_some_iff_earliest fun _ => LoaderSpec.lookupFailure?_eq_none_iff]
  simp only [LoaderSpec.lookupFailure?_eq_some_iff]
  rfl

theorem head?_searchFailures :
    (specs.filterMap (LoaderSpec.searchFailure? s.delegate info context loaderOptions)).head?
        = some e
      ↔ s.LoadersFail info context specs e := by
  rw [List.head?_filterMap, findSome?_eq_some_iff_earliest fun _ => by
    rw [LoaderSpec.searchFailure?_eq_none_iff, not_not]]
  simp only [LoaderSpec.searchFailure?_eq_some_iff]
  rfl

/-- A malformed loader fails a request that does not suppress its position. -/
theorem malformed?_of_counts_eq_some_iff {effect : RuleEffect} :
    (if suppression.counts effect then effect.malformed? else none) = some e
      ↔ ∃ loader kind position, effect = .malformedUse loader kind position
          ∧ ¬ suppression.Suppresses position ∧ e = .malformedOptions loader kind := by
  cases effect with
  | setting key value => simp [RuleEffect.malformed?]
  | use loader position => simp [RuleEffect.malformed?]
  | malformedUse loader kind position =>
    have hcounts : suppression.counts (.malformedUse loader kind position) = true
        ↔ ¬ suppression.Suppresses position := by
      rw [← Suppression.drops_iff_suppresses]
      simp [Suppression.counts]
    rw [Option.ite_none_right_eq_some, hcounts]
    constructor
    · rintro ⟨hd, ⟨⟩⟩
      exact ⟨loader, kind, position, rfl, hd, rfl⟩
    · rintro ⟨_, _, _, ⟨⟩, hd, rfl⟩
      exact ⟨hd, rfl⟩

theorem malformed?_of_counts_eq_none_iff {effect : RuleEffect} :
    (if suppression.counts effect then effect.malformed? else none) = none
      ↔ ¬ Unusable suppression effect := by
  rw [Option.eq_none_iff_forall_ne_some]
  constructor
  · rintro h ⟨loader, kind, position, heffect, hd⟩
    exact h _ (malformed?_of_counts_eq_some_iff.2 ⟨loader, kind, position, heffect, hd, rfl⟩)
  · intro h e he
    obtain ⟨loader, kind, position, heffect, hd, -⟩ := malformed?_of_counts_eq_some_iff.1 he
    exact h ⟨loader, kind, position, heffect, hd⟩

theorem head?_malformed :
    ((suppression.counted effects).filterMap RuleEffect.malformed?).head? = some e
      ↔ s.RuleFails info suppression effects b .options e := by
  rw [Suppression.counted, List.filterMap_filter, List.head?_filterMap,
    findSome?_eq_some_iff_earliest fun _ => malformed?_of_counts_eq_none_iff]
  simp only [malformed?_of_counts_eq_some_iff]
  constructor
  · rintro ⟨_, hfirst, loader, kind, position, rfl, -, rfl⟩
    exact .options hfirst
  · rintro ⟨hfirst⟩
    obtain ⟨-, loader, kind, position, heffect, hd⟩ := hfirst.mem
    cases heffect
    exact ⟨_, hfirst, _, _, _, rfl, hd, rfl⟩

theorem head?_filterMap_loadersAt {position : Enforce} {f : LoaderSpec → Option FactoryError} :
    ((suppression.loadersAt position effects).filterMap f).head? = some e
      ↔ ¬ suppression.Suppresses position
        ∧ ((effects.filterMap (RuleEffect.loaderAt? position)).filterMap f).head? = some e := by
  rw [Suppression.loadersAt, ← Suppression.drops_iff_suppresses]
  split
  · next hd => simp [hd]
  · next hd => simp [hd]

/-- The first failure of a stage is the one that it has by itself. -/
theorem head?_ruleStageFailures {stage : RuleStage} :
    (s.ruleStageFailures info suppression effects b stage).head? = some e
      ↔ s.RuleFails info suppression effects b stage e := by
  cases stage with
  | options => exact head?_malformed
  | references position =>
    rw [ruleStageFailures, head?_filterMap_loadersAt, head?_lookupFailures]
    exact ⟨fun ⟨hd, h⟩ => .references hd h, fun (.references hd h) => ⟨hd, h⟩⟩
  | loaders position =>
    rw [ruleStageFailures, head?_filterMap_loadersAt, head?_searchFailures]
    exact ⟨fun ⟨hd, h⟩ => .loaders hd h, fun (.loaders hd h) => ⟨hd, h⟩⟩
  | parser =>
    rw [ruleStageFailures, Option.head?_toList, Bench.failure?_parser_eq_some_iff]
    exact ⟨fun ⟨_, h⟩ => .parser h, fun (.parser h) => ⟨_, h⟩⟩
  | generator =>
    rw [ruleStageFailures, Option.head?_toList, Bench.failure?_generator_eq_some_iff]
    exact ⟨fun ⟨_, _, _, hparser, h⟩ => .generator hparser h,
      fun (.generator hparser h) => ⟨_, _, _, hparser, h⟩⟩

theorem head?_stageFailures {stage : Stage} :
    (s.stageFailures r b stage).head? = some e ↔ s.Fails r b stage e := by
  cases stage with
  | inlineReferences =>
    rw [stageFailures, head?_lookupFailures]
    exact ⟨.inlineReferences, fun (.inlineReferences h) => h⟩
  | inlineLoaders =>
    rw [stageFailures, head?_searchFailures]
    exact ⟨.inlineLoaders, fun (.inlineLoaders h) => h⟩
  | resource =>
    rw [stageFailures, List.head?_map, Option.head?_toList, Option.map_eq_some_iff]
    simp only [failure?_eq_some_iff, findResource_eq_iff_locates]
    exact ⟨fun ⟨_, h, he⟩ => he ▸ .resource h, fun (.resource h) => ⟨_, h, rfl⟩⟩
  | found stage =>
    rw [stageFailures]
    constructor
    · intro h
      split at h
      · next resource data hresource =>
        exact .found (findResource_eq_iff_locates.1 hresource) (head?_ruleStageFailures.1 h)
      · cases h
    · intro h
      cases h with
      | found there h =>
        rw [findResource_eq_iff_locates.2 there]
        exact head?_ruleStageFailures.2 h

theorem effectFailures_eq_flatMap (b : Bench σ) :
    s.effectFailures info (suppression.counted effects)
      = [RuleStage.options, .references .post, .loaders .post, .references .normal,
          .loaders .normal, .references .pre, .loaders .pre].flatMap
        (s.ruleStageFailures info suppression effects b) := by
  unfold effectFailures findFailures loaderFailures
  simp only [Suppression.filterMap_loaderAt?_counted, List.flatMap_cons, List.flatMap_nil,
    List.append_nil, List.append_assoc]
  rfl

theorem equipFailures_eq_flatMap (s : Setup) (info : ContextInfo) :
    b.equipFailures (Settings.empty.applyAll
        ((suppression.counted effects).filterMap RuleEffect.setting?))
      = [RuleStage.parser, .generator].flatMap
        (s.ruleStageFailures info suppression effects b) := by
  rw [Suppression.filterMap_setting?_counted, List.flatMap_cons, List.flatMap_singleton]
  rfl

/-- The list of all failures, stage by stage. -/
theorem failures_eq_flatMap (s : Setup) (r : ImportRequest) (b : Bench σ) :
    s.failures r b = Stage.all.flatMap (s.stageFailures r b) := by
  have hall : Stage.all.flatMap (s.stageFailures r b)
      = s.findFailures r.info r.context (Request.parse r.context r.request).loaders
        ++ s.stageFailures r b .resource
        ++ RuleStage.all.flatMap fun stage => s.stageFailures r b (.found stage) := by
    unfold Stage.all findFailures loaderFailures
    rw [List.flatMap_append, List.flatMap_map]
    simp only [List.flatMap_cons, List.flatMap_nil, List.append_nil, List.append_assoc]
    rfl
  rw [hall, failures, resolveFailures]
  unfold stageFailures
  cases s.findResource r with
  | error e => simp [failure?]
  | ok found =>
    cases found with
    | ignored => simp [failure?]
    | resolved resource data =>
      simp only [countedEffects]
      rw [effectFailures_eq_flatMap b, equipFailures_eq_flatMap s r.info, List.append_assoc,
        ← List.flatMap_append]
      simp [failure?, RuleStage.all]

theorem Stage.mem_all : ∀ stage : Stage, stage ∈ all
  | .inlineReferences | .inlineLoaders | .resource => by decide
  | .found (.references position) | .found (.loaders position) => by cases position <;> decide
  | .found .options | .found .parser | .found .generator => by decide

/-- The first failure of the list is that of the first stage that fails. -/
theorem head?_failures :
    (s.failures r b).head? = some e
      ↔ ∃ stage, Earliest (fun stage => ∃ e, s.Fails r b stage e) Stage.all stage
          ∧ s.Fails r b stage e := by
  have hfails (stage : Stage) : (s.stageFailures r b stage).head? = none
      ↔ ¬ ∃ e, s.Fails r b stage e := by
    simp only [Option.eq_none_iff_forall_ne_some, ne_eq, head?_stageFailures, not_exists]
  rw [failures_eq_flatMap, List.head?_flatMap, findSome?_eq_some_iff_earliest hfails]
  simp only [head?_stageFailures]

theorem failures_eq_nil_iff : s.failures r b = [] ↔ ∀ stage e, ¬ s.Fails r b stage e := by
  rw [failures_eq_flatMap, List.flatMap_eq_nil_iff]
  constructor
  · intro h stage e hfails
    have hhead := head?_stageFailures.2 hfails
    rw [h stage stage.mem_all] at hhead
    cases hhead
  · intro h stage _
    rw [← List.head?_eq_none_iff, Option.eq_none_iff_forall_ne_some]
    exact fun e he => h stage e (head?_stageFailures.1 he)

/-- Where the resource is ignored, nothing but the inline loaders can fail. -/
theorem not_fails_iff_of_ignored (h : s.Locates r (.ok .ignored)) :
    (∀ stage e, ¬ s.Fails r b stage e)
      ↔ ∀ e, ¬ s.Fails r b .inlineReferences e ∧ ¬ s.Fails r b .inlineLoaders e := by
  constructor
  · exact fun hnone e => ⟨hnone .inlineReferences e, hnone .inlineLoaders e⟩
  · intro hinline stage e hfails
    cases hfails with
    | inlineReferences hrefs => exact (hinline e).1 (.inlineReferences hrefs)
    | inlineLoaders hloaders => exact (hinline e).2 (.inlineLoaders hloaders)
    | resource herror => cases h.unique herror
    | found there _ => cases h.unique there

end Stages

/-- **The first stage that fails decides.** Its failure is reported, and if none
fails the resolver succeeds: with a stand-in for a resource that is ignored,
of which nothing but the inline loaders matters, and with data for one that is
found. -/
theorem defaultResolver_first_failure (s : Setup) (r : ImportRequest) (b : Bench σ) :
    (∀ e, (defaultResolver s r b).1 = .error e
      ↔ ∃ stage, Earliest (fun stage => ∃ e, s.Fails r b stage e) Stage.all stage
          ∧ s.Fails r b stage e)
    ∧ ((∃ v, (defaultResolver s r b).1 = .ok v) ↔ ∀ stage e, ¬ s.Fails r b stage e)
    ∧ ((defaultResolver s r b).1 = .ok (some (.module (.raw (.ignored r.context r.request))))
      ↔ s.Locates r (.ok .ignored)
        ∧ ∀ e, ¬ s.Fails r b .inlineReferences e ∧ ¬ s.Fails r b .inlineLoaders e)
    ∧ ((∃ d, (defaultResolver s r b).1 = .ok (some (.data d)))
      ↔ (∃ resource data, s.Locates r (.ok (.resolved resource data)))
        ∧ ∀ stage e, ¬ s.Fails r b stage e) := by
  have hfail := s.failure?_defaultResolver r b
  have hok : (∃ v, (defaultResolver s r b).1 = .ok v) ↔ ∀ stage e, ¬ s.Fails r b stage e := by
    rw [← failure?_eq_none_iff, hfail, List.head?_eq_none_iff, failures_eq_nil_iff]
  refine ⟨fun e => ?_, hok, ?_, ?_⟩
  · rw [← failure?_eq_some_iff, hfail, head?_failures]
  · constructor
    · intro h
      obtain ⟨hresource, -⟩ | ⟨-, d, hd⟩ := defaultResolver_eq_ok h
      · have hignored := findResource_eq_iff_locates.1 hresource
        exact ⟨hignored, (not_fails_iff_of_ignored hignored).1 (hok.1 ⟨_, h⟩)⟩
      · cases hd
    · rintro ⟨hignored, hinline⟩
      obtain ⟨v, hv⟩ := hok.2 ((not_fails_iff_of_ignored hignored).2 hinline)
      obtain ⟨-, rfl⟩ | ⟨⟨_, _, hfound⟩, -⟩ := defaultResolver_eq_ok hv
      · exact hv
      · cases hignored.unique (findResource_eq_iff_locates.1 hfound)
  · constructor
    · rintro ⟨d, h⟩
      obtain ⟨-, hd⟩ | ⟨⟨resource, data, hfound⟩, -⟩ := defaultResolver_eq_ok h
      · cases hd
      · exact ⟨⟨resource, data, findResource_eq_iff_locates.1 hfound⟩, hok.1 ⟨_, h⟩⟩
    · rintro ⟨⟨_, _, hfound⟩, hnone⟩
      obtain ⟨v, hv⟩ := hok.2 hnone
      obtain ⟨hresource, -⟩ | ⟨-, d, rfl⟩ := defaultResolver_eq_ok hv
      · cases hfound.unique (findResource_eq_iff_locates.1 hresource)
      · exact ⟨d, hv⟩

/-- Rules of which none can be used: options that no loader takes, a reference
that leads nowhere, and a loader that nobody knows. -/
def troubledRules : List Rule :=
  [⟨{ loader := some "x-loader", options := some (.bool true) }, [], []⟩,
   ⟨{ uses := some (.one (.request "y-loader??nowhere")), enforce := some .pre }, [], []⟩,
   ⟨{ loader := some "gone-loader", enforce := some .post }, [], []⟩]

/-- One resource is found and one is left out; no loader is found. -/
def troubledSetup : Setup :=
  { context := "/app"
    rules := (RuleSet.compile troubledRules).toOption.getD .empty
    delegate := fun call =>
      if call.kind = .normal ∧ call.request = "./skipped.js" then .ok .ignored
      else if call.kind = .normal ∧ call.request = "./a.js" then .ok (.resolved "/app/a.js" none)
      else .error ⟨call.request, call.context, "Module not found"⟩ }

def troubledRequest (request : String) : ImportRequest :=
  { context := "/app/src", request, dependencies := [] }

/-- None of the rules matters for the resource that is left out, nor where all of
them are suppressed; otherwise each mark lets another failure come first. -/
theorem defaultResolver_first_failure_of_troubledSetup :
    (defaultResolver troubledSetup (troubledRequest "./skipped.js") builtinBench).1
      = .ok (some (.module (.raw (.ignored "/app/src" "./skipped.js"))))
    ∧ (defaultResolver troubledSetup (troubledRequest "z!y-loader??nowhere!./skipped.js")
        builtinBench).1 = .error (.optionLookup "nowhere")
    ∧ (defaultResolver troubledSetup (troubledRequest "./gone.js") builtinBench).1
      = .error (.resolution ⟨"./gone.js", "/app/src", "Module not found"⟩)
    ∧ (defaultResolver troubledSetup (troubledRequest "./a.js") builtinBench).1
      = .error (.malformedOptions "x-loader" "boolean")
    ∧ (defaultResolver troubledSetup (troubledRequest "!./a.js") builtinBench).1
      = .error (.resolution ⟨"gone-loader", "/app", "Module not found"⟩)
    ∧ (∃ d, (defaultResolver troubledSetup (troubledRequest "!!./a.js") builtinBench).1
      = .ok (some (.data d)))
    ∧ (defaultResolver troubledSetup (troubledRequest "!!./a.js") { world := () }).1
      = .error (.unregistered .parser "javascript/auto") := by
  have hfails (request : String) (b : Bench Unit) (e : FactoryError)
      (h : (troubledSetup.failures (troubledRequest request) b).head? = some e) :
      (defaultResolver troubledSetup (troubledRequest request) b).1 = .error e :=
    ((defaultResolver_first_failure troubledSetup (troubledRequest request) b).1 e).2
      (head?_failures.1 h)
  obtain ⟨-, -, hignored, -⟩ :=
    defaultResolver_first_failure troubledSetup (troubledRequest "./skipped.js") builtinBench
  obtain ⟨-, -, -, hdata⟩ :=
    defaultResolver_first_failure troubledSetup (troubledRequest "!!./a.js") builtinBench
  have hskipped : troubledSetup.Locates (troubledRequest "./skipped.js") (.ok .ignored) :=
    findResource_eq_iff_locates.1 (by decide +kernel)
  have hfound : troubledSetup.Locates (troubledRequest "!!./a.js")
      (.ok (.resolved "/app/a.js" none)) := findResource_eq_iff_locates.1 (by decide +kernel)
  refine ⟨hignored.2 ⟨hskipped, (not_fails_iff_of_ignored hskipped).1
      (failures_eq_nil_iff.1 (by decide +kernel))⟩, ?_, ?_, ?_, ?_,
    hdata.2 ⟨⟨_, _, hfound⟩, failures_eq_nil_iff.1 (by decide +kernel)⟩, ?_⟩
  · exact hfails _ _ _ (by decide +kernel)
  · exact hfails _ _ _ (by decide +kernel)
  · exact hfails _ _ _ (by decide +kernel)
  · exact hfails _ _ _ (by decide +kernel)
  · exact hfails _ _ _ (by decide +kernel)

/-! ## What is suppressed -/

/-- Two factories whose rules differ only in effects that a request
suppresses have the same failures for it. -/
theorem failures_congr {s s' : Setup} {r : ImportRequest} {b : Bench σ}
    (hcontext : s'.context = s.context) (hdelegate : s'.delegate = s.delegate)
    (hoptions : s'.rules.options? = s.rules.options?)
    (heffects : s'.countedEffects r.info (Request.parse r.context r.request)
      = s.countedEffects r.info (Request.parse r.context r.request)) :
    s'.failures r b = s.failures r b := by
  have hfind : s'.findFailures r.info = s.findFailures r.info := by
    funext context specs
    unfold findFailures loaderFailures LoaderSpec.lookupFailure?
    rw [hdelegate, hoptions]
  have hresource : s'.findResource r = s.findResource r := by
    unfold findResource
    rw [hdelegate]
  unfold failures resolveFailures effectFailures
  simp only [hfind, hresource, heffects, hcontext]

/-- What is wrong with rules that a request suppresses never surfaces. -/
theorem failure?_defaultResolver_congr {s s' : Setup} {r : ImportRequest} {b : Bench σ}
    (hcontext : s'.context = s.context) (hdelegate : s'.delegate = s.delegate)
    (hoptions : s'.rules.options? = s.rules.options?)
    (heffects : s'.countedEffects r.info (Request.parse r.context r.request)
      = s.countedEffects r.info (Request.parse r.context r.request)) :
    failure? (defaultResolver s' r b).1 = failure? (defaultResolver s r b).1 := by
  rw [failure?_defaultResolver, failure?_defaultResolver,
    failures_congr hcontext hdelegate hoptions heffects]

end Setup

end ImportChain
