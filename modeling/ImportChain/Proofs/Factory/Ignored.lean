/-
ImportChain.Proofs.Factory.Ignored — requests whose resource is left out.

Before the resource is known a request depends on the rules only through
the options that its inline loaders refer to (`Setup.firstCalls_congr`,
`Setup.inlineFailures_congr`). A request that ends there is told apart by
nothing else: `ignored_of_defaultFactory`, the main statement, runs two
factories with different rules and different taps side by side.

That nothing happens after the resource was left out is said by the
workshop: it is as it was, except for the questions put to the delegate.
-/
import ImportChain.Proofs.Chain.Failure
import ImportChain.Proofs.Factory.Untapped
import ImportChain.Proofs.Loader.Search

namespace ImportChain

open Outcome

/-! ## References -/

/-- Whether two rule sets give the inline references of a request the same
options. -/
def ImportRequest.RefersAlike (r : ImportRequest) (rules rules' : RuleSet) : Prop :=
  ∀ spec ∈ (Request.parse r.context r.request).loaders, ∀ ident, spec.RefersTo ident →
    rules'.options? ident = rules.options? ident

namespace LoaderSpec

variable {rules rules' : RuleSet} {spec : LoaderSpec}

/-- Rules count for a loader only through the options that it refers to. -/
theorem withOptions_congr
    (h : ∀ ident, spec.RefersTo ident → rules'.options? ident = rules.options? ident) :
    spec.withOptions rules' = spec.withOptions rules := by
  obtain ⟨name, options, ident⟩ := spec
  cases options with
  | inline query => cases ident <;> rfl
  | structured fields => cases ident <;> rfl
  | absent =>
    cases ident with
    | none => rfl
    | some ident =>
      have hfind : rules'.findOptions ident = rules.findOptions ident := by
        unfold RuleSet.findOptions
        rw [h ident ⟨rfl, rfl⟩]
      show (rules'.findOptions ident >>= _) = (rules.findOptions ident >>= _)
      rw [hfind]

theorem lookupFailure?_congr
    (h : ∀ ident, spec.RefersTo ident → rules'.options? ident = rules.options? ident) :
    spec.lookupFailure? rules' = spec.lookupFailure? rules := by
  rw [← failure?_withOptions, ← failure?_withOptions, withOptions_congr h]

end LoaderSpec

/-! ## Up to the resource -/

namespace Setup

/-- The failures of the inline loaders of a request, in the order in which
they count. -/
def inlineFailures (s : Setup) (r : ImportRequest) : List FactoryError :=
  s.findFailures r.info r.context (Request.parse r.context r.request).loaders

/-- The questions asked before any rule is matched: about the inline loaders
and the resource of a request. -/
def firstCalls (s : Setup) (r : ImportRequest) : List Call :=
  let parsed := Request.parse r.context r.request
  s.findLoadersCalls r.info r.context parsed.loaders
    ++ resourceCalls r.info r.context parsed.resource r.resolveOptions

variable {s : Setup} {r : ImportRequest}

theorem inlineFailures_congr {rules' : RuleSet} (h : r.RefersAlike s.rules rules') :
    { s with rules := rules' }.inlineFailures r = s.inlineFailures r := by
  unfold inlineFailures findFailures loaderFailures
  congr 1
  apply List.filterMap_congr
  intro spec hs
  exact LoaderSpec.lookupFailure?_congr (h spec hs)

theorem firstCalls_congr {rules' : RuleSet} (h : r.RefersAlike s.rules rules') :
    { s with rules := rules' }.firstCalls r = s.firstCalls r := by
  have hlookups : (Request.parse r.context r.request).loaders.mapM (LoaderSpec.withOptions rules')
      = (Request.parse r.context r.request).loaders.mapM (LoaderSpec.withOptions s.rules) := by
    have hmap := List.map_congr_left fun spec hs => LoaderSpec.withOptions_congr (h spec hs)
    rw [← Function.id_comp (LoaderSpec.withOptions rules'), ← List.mapM_map, hmap, List.mapM_map]
    rfl
  unfold firstCalls findLoadersCalls loadersCalls
  simp only [hlookups]

/-- An inline loader that fails ends a request, whatever becomes of the
resource. -/
theorem resolve_of_inlineFailures {e : FactoryError} (h : (s.inlineFailures r).head? = some e) :
    s.resolve r = .error e ∧ s.resolveCalls r = s.firstCalls r := by
  have hfind : s.findLoaders r.info r.context (Request.parse r.context r.request).loaders
      = .error e := by
    rw [← failure?_eq_some_iff, failure?_findLoaders]
    exact h
  unfold resolve resolveCalls
  simp only [hfind]
  exact ⟨rfl, rfl⟩

/-- So does a resource that is left out, if none of them fails. -/
theorem resolve_of_ignored (h : s.inlineFailures r = [])
    (hresource : s.findResource r = .ok .ignored) :
    s.resolve r = .ok (.ignored (.ignored r.context r.request))
      ∧ s.resolveCalls r = s.firstCalls r := by
  have hnone : failure? (s.findLoaders r.info r.context
      (Request.parse r.context r.request).loaders) = none := by
    rw [failure?_findLoaders]
    exact List.head?_eq_none_iff.2 h
  obtain ⟨inline, hinline⟩ := failure?_eq_none_iff.1 hnone
  unfold findResource at hresource
  unfold resolve resolveCalls
  simp only [hinline, hresource]
  exact ⟨rfl, rfl⟩

end Setup

/-! ## Factories -/

namespace Workshop

variable {σ : Type}

/-- A workshop after questions to the delegate, and as it was otherwise. -/
def afterCalls (w : Workshop σ) (calls : List Call) : Workshop σ :=
  { w with bench := { w.bench with calls := w.bench.calls ++ calls } }

end Workshop

section Factory

variable {σ : Type} {s : Setup} {r : ImportRequest} {w : Workshop σ}

theorem defaultFactory_of_inlineFailures (hw : w.resolver.taps = []) {e : FactoryError}
    (h : (s.inlineFailures r).head? = some e) :
    defaultFactory s r w = (.error e, w.afterCalls (s.firstCalls r)) := by
  obtain ⟨hresolve, hcalls⟩ := Setup.resolve_of_inlineFailures h
  unfold defaultFactory
  rw [Action.bind_apply, Workshop.callResolver_of_untapped hw]
  simp only
  rw [Action.bind_apply]
  unfold Workshop.onBench
  rw [defaultResolver_of_error hresolve]
  simp only [Bench.asked, hcalls]
  rfl

theorem defaultFactory_of_ignored (hw : w.resolver.taps = []) (h : s.inlineFailures r = [])
    (hresource : s.findResource r = .ok .ignored) :
    defaultFactory s r w
      = (.ok (some (.raw (.ignored r.context r.request))), w.afterCalls (s.firstCalls r)) := by
  obtain ⟨hresolve, hcalls⟩ := Setup.resolve_of_ignored h hresource
  unfold defaultFactory
  rw [Action.bind_apply, Workshop.callResolver_of_untapped hw]
  simp only
  rw [Action.bind_apply]
  unfold Workshop.onBench
  rw [defaultResolver_of_ignored hresolve]
  simp only [Bench.asked, hcalls]
  rfl

end Factory

/-- Two factories that differ in their rules and their taps, but have not
tapped the choice of a resolver, give one answer to a request that ends
before rules are matched, provided the options that it refers to are the
same. If no inline loader fails and the resource is left out, this is the
stand-in for the request; if one fails, it is the first failure, whatever
becomes of the resource. Either way nobody is asked for the loaders of a
rule, and the worlds, the taps and the parsers and generators stay as they
were. -/
theorem ignored_of_defaultFactory {σ σ' : Type} {s : Setup} {rules' : RuleSet}
    {r : ImportRequest} {w : Workshop σ} {w' : Workshop σ'}
    (hrefs : r.RefersAlike s.rules rules')
    (hw : w.resolver.taps = []) (hw' : w'.resolver.taps = []) :
    (s.inlineFailures r = [] → s.findResource r = .ok .ignored →
      defaultFactory s r w
        = (.ok (some (.raw (.ignored r.context r.request))), w.afterCalls (s.firstCalls r))
      ∧ defaultFactory { s with rules := rules' } r w'
        = (.ok (some (.raw (.ignored r.context r.request))), w'.afterCalls (s.firstCalls r)))
    ∧ ∀ e, (s.inlineFailures r).head? = some e →
      defaultFactory s r w = (.error e, w.afterCalls (s.firstCalls r))
      ∧ defaultFactory { s with rules := rules' } r w'
        = (.error e, w'.afterCalls (s.firstCalls r)) := by
  have hfailures := Setup.inlineFailures_congr hrefs
  have hcalls := Setup.firstCalls_congr hrefs
  constructor
  · intro h hresource
    refine ⟨defaultFactory_of_ignored hw h hresource, ?_⟩
    rw [← hcalls]
    exact defaultFactory_of_ignored hw' (hfailures.trans h) hresource
  · intro e he
    refine ⟨defaultFactory_of_inlineFailures hw he, ?_⟩
    rw [← hcalls]
    exact defaultFactory_of_inlineFailures hw' (hfailures ▸ he)

/-- A rule for other issuers that names the options of a loader. -/
def themeRule : Rule :=
  ⟨{ issuer := some (.beginsWith "/other"),
     uses := some (.one (.loader "css-loader" (some (.obj [("modules", .bool true)]))
      (some "theme"))) }, [], []⟩

/-- Options that no loader takes, for every resource. -/
def brokenRule : Rule := ⟨{ loader := some "x-loader", options := some (.bool true) }, [], []⟩

/-- A delegate that knows one loader and leaves out every resource. -/
def skippingDelegate : Delegate := fun call =>
  match call.kind with
  | .normal => .ok .ignored
  | .loader =>
    if call.request = "css-loader" then .ok (.resolved "/l/css.js" none)
    else .error ⟨call.request, call.context, "Module not found"⟩

def themeSetup : Setup :=
  { context := "/app"
    rules := (RuleSet.compile [themeRule]).toOption.getD .empty
    delegate := skippingDelegate }

/-- Rules that would refuse every request. -/
def brokenSet : RuleSet := (RuleSet.compile [brokenRule, themeRule]).toOption.getD .empty

/-- A request that refers to named options. -/
def themeRequest : ImportRequest :=
  { context := "/app", request := "css-loader??theme!./a.css", dependencies := [] }

/-- A request with a loader that nobody knows. -/
def goneRequest : ImportRequest :=
  { context := "/app", request := "css-loader!gone-loader!./a.css", dependencies := [] }

/-- A workshop in which a tap writes down what it sees and drops it. -/
def nosyWorkshop : Workshop (List String) :=
  { bench := { world := [] }
    afterResolve := ⟨"afterResolve", [.plain "Nosy" fun _ world =>
      (.ok (.replace none), "afterResolve" :: world)]⟩
    moduleHook := ⟨"module", [.plain "Nosy" fun (m, _) world =>
      (.ok .unchanged, m.identifier :: world)]⟩ }

/-- A workshop that nobody has tapped. -/
def quietWorkshop : Workshop Unit := { bench := builtinBench }

/-- Neither rules that refuse everything nor a tap that drops everything
comes into it. -/
theorem ignored_of_defaultFactory_of_themeRequest :
    (defaultFactory themeSetup themeRequest nosyWorkshop
        = (.ok (some (.raw (.ignored "/app" "css-loader??theme!./a.css"))),
            nosyWorkshop.afterCalls (themeSetup.firstCalls themeRequest))
      ∧ defaultFactory { themeSetup with rules := brokenSet } themeRequest quietWorkshop
        = (.ok (some (.raw (.ignored "/app" "css-loader??theme!./a.css"))),
            quietWorkshop.afterCalls (themeSetup.firstCalls themeRequest)))
    ∧ (defaultFactory themeSetup goneRequest nosyWorkshop).1
        = .error (.resolution ⟨"gone-loader", "/app", "Module not found"⟩)
    ∧ (defaultFactory { themeSetup with rules := brokenSet } goneRequest quietWorkshop).1
        = .error (.resolution ⟨"gone-loader", "/app", "Module not found"⟩) := by
  have htheme : themeRequest.RefersAlike themeSetup.rules brokenSet := by
    intro spec hs ident href
    have hloaders : (Request.parse themeRequest.context themeRequest.request).loaders
        = [⟨"css-loader", .absent, some "theme"⟩] := by decide +kernel
    rw [hloaders] at hs
    obtain rfl := List.mem_singleton.1 hs
    obtain rfl : "theme" = ident := Option.some.inj href.named
    decide +kernel
  have hgone : goneRequest.RefersAlike themeSetup.rules brokenSet := by
    intro spec hs ident href
    have hloaders : ∀ spec ∈ (Request.parse goneRequest.context goneRequest.request).loaders,
        spec.ident = none := by decide +kernel
    exact absurd ((hloaders spec hs).symm.trans href.named) nofun
  have hresource : themeSetup.findResource themeRequest = .ok .ignored := by decide +kernel
  have hnosy : nosyWorkshop.resolver.taps = [] := rfl
  have hquiet : quietWorkshop.resolver.taps = [] := rfl
  obtain ⟨hignored, -⟩ := ignored_of_defaultFactory htheme hnosy hquiet
  obtain ⟨-, hfails⟩ := ignored_of_defaultFactory hgone hnosy hquiet
  obtain ⟨hfirst, hsecond⟩ := hfails (.resolution ⟨"gone-loader", "/app", "Module not found"⟩)
    (by decide +kernel)
  exact ⟨hignored (by decide +kernel) hresource, congrArg Prod.fst hfirst,
    congrArg Prod.fst hsecond⟩

end ImportChain
