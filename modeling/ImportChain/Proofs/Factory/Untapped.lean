/-
ImportChain.Proofs.Factory.Untapped — a factory whose hooks nobody has
tapped.

A hook without taps leaves its value alone, so that what a request becomes
is up to the default resolver (`Factory.build_of_untapped`). It only works
on the bench: parsers and generators may be tapped, and are.

`Session.makes_of_create` is the main statement, about every sequence of
calls: whether it is new or remembered, a module that a call gives is one
that the setup makes of some request.
-/
import ImportChain.Proofs.Factory.Memory

namespace ImportChain

/-! ## Hooks without taps -/

namespace Hook

variable {σ α β γ τ ρ : Type}

theorem waterfall_of_untapped {h : Hook σ (τ × γ) (Except HookError (Waterfall τ))}
    (hu : h.taps = []) (seed : τ) (args : γ) (world : σ) :
    h.waterfall seed args world = ⟨.ok seed, [], world⟩ := by
  unfold waterfall
  rw [hu]
  rfl

theorem bail_of_untapped {h : Hook σ α (Except HookError (Option ρ))} (hu : h.taps = [])
    (arg : α) (world : σ) : h.bail arg world = ⟨.ok none, [], world⟩ := by
  unfold bail
  rw [hu]
  rfl

/-- A call that registers no taps leaves the hook as it was. -/
theorem after_of_added_eq_nil (h : Hook σ α β) {o : Outcome σ α β ρ} (ho : o.added = []) :
    h.after o = h := by
  unfold after
  rw [ho, List.append_nil]

end Hook

/-! ## Workshops -/

/-- What a request becomes where no hook sees it: a module of its data, or
the finished module that it leads to. -/
def Resolved.settle : Option Resolved → Except FactoryError (Option Module)
  | none => .ok none
  | some (.module m) => .ok (some m)
  | some (.data d) =>
    if d.descriptor.request = "" then .error .emptyDependency
    else .ok (some (.normal d.descriptor))

namespace Workshop

variable {σ : Type} {w : Workshop σ}

/-- Whether none of the hooks around a module is tapped. -/
structure Untapped (w : Workshop σ) : Prop where
  resolver : w.resolver.taps = []
  afterResolve : w.afterResolve.taps = []
  createModule : w.createModule.taps = []
  moduleHook : w.moduleHook.taps = []

theorem callResolver_of_untapped (h : w.resolver.taps = []) (seed : ResolverFn σ) :
    callResolver seed w = (.ok (some seed), w) := by
  simp only [callResolver, Hook.waterfall_of_untapped h, Hook.after_of_added_eq_nil]
  rfl

theorem callAfterResolve_of_untapped (h : w.afterResolve.taps = []) (data : ResolvedImport) :
    callAfterResolve data w = (.ok (some data), w) := by
  simp only [callAfterResolve, Hook.waterfall_of_untapped h, Hook.after_of_added_eq_nil]
  rfl

theorem callCreateModule_of_untapped (h : w.createModule.taps = []) (data : ResolvedImport) :
    callCreateModule data w = (.ok none, w) := by
  simp only [callCreateModule, Hook.bail_of_untapped h, Hook.after_of_added_eq_nil]
  rfl

theorem callModule_of_untapped (h : w.moduleHook.taps = []) (m : Module) (data : ResolvedImport) :
    callModule m data w = (.ok m, w) := by
  simp only [callModule, Hook.waterfall_of_untapped h, Hook.after_of_added_eq_nil]
  rfl

theorem finish_of_untapped (h : w.Untapped) (data : ResolvedImport) :
    finish data w = (Resolved.settle (some (.data data)), w) := by
  unfold finish
  rw [Action.bind_apply, callAfterResolve_of_untapped h.afterResolve]
  simp only
  unfold makeModule Resolved.settle
  rw [Action.bind_apply, Action.bind_apply, callCreateModule_of_untapped h.createModule]
  by_cases he : data.descriptor.request = ""
  · simp only [he, if_true]
    rfl
  · simp only [he, if_false, callModule_of_untapped h.moduleHook]
    rfl

end Workshop

/-- The default factory function comes to what the default resolver gives,
and works on the bench only. -/
theorem defaultFactory_of_untapped {σ : Type} {w : Workshop σ} (h : w.Untapped) (s : Setup)
    (r : ImportRequest) :
    defaultFactory s r w
      = ((defaultResolver s r w.bench).1.bind Resolved.settle,
          { w with bench := (defaultResolver s r w.bench).2 }) := by
  unfold defaultFactory
  rw [Action.bind_apply, Workshop.callResolver_of_untapped h.resolver]
  simp only
  rw [Action.bind_apply]
  unfold Workshop.onBench
  cases defaultResolver s r w.bench with
  | mk result bench =>
    cases result with
    | error e => rfl
    | ok found =>
      cases found with
      | none => rfl
      | some found =>
        cases found with
        | module m => rfl
        | data data =>
          have hw : Workshop.Untapped { w with bench } :=
            ⟨h.resolver, h.afterResolve, h.createModule, h.moduleHook⟩
          exact Workshop.finish_of_untapped hw data

/-! ## Caches -/

namespace DependencyCache

variable {α : Type} {c : DependencyCache α} {P : α → Prop}

/-- Whether everything in a cache has a property. -/
def All (P : α → Prop) (c : DependencyCache α) : Prop :=
  ∀ (address : Nat) (e : CacheEntry α), c.entries[address]? = some e → P e.value

theorem all_empty (P : α → Prop) : (DependencyCache.empty : DependencyCache α).All P := by
  intro address e he
  rw [show (DependencyCache.empty : DependencyCache α).entries[address]? = none from
    Std.TreeMap.getElem?_emptyc] at he
  cases he

theorem All.get? (h : c.All P) {alive : Nat → Bool} {d : Dependency} {v : α}
    (hv : c.get? alive d = some v) : P v := by
  unfold DependencyCache.get? at hv
  split at hv
  · next e he =>
    obtain ⟨-, he'⟩ := Option.ite_none_right_eq_some.1 hv
    cases he'
    exact h _ e he
  · cases hv

theorem All.sweep (h : c.All P) (alive : Nat → Bool) : (c.sweep alive).All P := by
  intro address e he
  rw [entries_sweep, getElem?_living, Option.filter_eq_some_iff] at he
  exact h address e he.1

theorem All.insert (h : c.All P) (alive : Nat → Bool) (d : Dependency) {v : α} (hv : P v) :
    (c.insert alive d v).All P := by
  have hswept : (if c.sweepAt ≤ c.entries.size then c.sweep alive else c).All P := by
    split
    · exact h.sweep alive
    · exact h
  intro address e he
  rw [insert_eq_file, getElem?_file] at he
  split at he
  · cases he
    exact hv
  · exact hswept address e he

theorem All.rememberAll {P : Shared Module → Prop} {m : Shared Module} (alive : Nat → Bool) :
    ∀ (dependencies : List Dependency) {c : DependencyCache (Shared Module)},
      c.All P → P m → (Factory.rememberAll alive dependencies m c).All P
  | [], _, h, _ => h
  | first :: rest, _, h, hm => (h.insert alive first hm).rememberAll alive rest hm

end DependencyCache

/-! ## Factories -/

/-- Whether a module is one that a setup makes of some request. -/
def Setup.Makes (s : Setup) : Module → Prop
  | .normal d => ∃ r c p g, s.resolve r = .ok (.chain c) ∧ d = c.descriptor r p g
  | .raw standIn => ∃ r, s.resolve r = .ok (.ignored standIn)

theorem Setup.makes_of_settle {σ : Type} {s : Setup} {r : ImportRequest} {b : Bench σ} {m : Module}
    (h : (defaultResolver s r b).1.bind Resolved.settle = .ok (some m)) : s.Makes m := by
  obtain ⟨found, hfound, hsettle⟩ := Outcome.bind_eq_ok_iff.1 h
  cases found with
  | none => cases hsettle
  | some found =>
    cases found with
    | data d =>
      obtain ⟨c, p, g, hc, rfl⟩ := defaultResolver_eq_data hfound
      rw [Resolved.settle] at hsettle
      by_cases he : (c.descriptor r p g).request = ""
      · rw [if_pos he] at hsettle
        cases hsettle
      · rw [if_neg he] at hsettle
        cases hsettle
        exact ⟨r, c, p, g, hc, rfl⟩
    | module standIn =>
      cases hsettle
      cases hs : s.resolve r with
      | error e =>
        rw [defaultResolver_of_error hs] at hfound
        cases hfound
      | ok result =>
        cases result with
        | ignored standIn =>
          rw [defaultResolver_of_ignored hs] at hfound
          cases hfound
          exact ⟨r, hs⟩
        | chain c =>
          rw [defaultResolver_of_chain hs] at hfound
          obtain ⟨d, -, hd⟩ := Outcome.map_eq_ok_iff.1 hfound
          cases hd

namespace Factory

variable {σ : Type} {f f' : Factory σ} {s : FactorySetup}

/-- Whether none of a factory's own hooks is tapped. -/
structure Untapped (f : Factory σ) : Prop where
  workshop : f.workshop.Untapped
  beforeResolve : f.beforeResolve.taps = []
  factoryHook : f.factoryHook.taps = []

theorem callBeforeResolve_of_untapped (h : f.beforeResolve.taps = []) (r : ImportRequest) :
    callBeforeResolve r f = (.ok (some r), f) := by
  simp only [callBeforeResolve, Hook.waterfall_of_untapped h, Hook.after_of_added_eq_nil]
  rfl

theorem callFactory_of_untapped (h : f.factoryHook.taps = []) (seed : FactoryFn σ) :
    callFactory seed f = (.ok (some seed), f) := by
  simp only [callFactory, Hook.waterfall_of_untapped h, Hook.after_of_added_eq_nil]
  rfl

/-- The factory with another bench. -/
def onBench (f : Factory σ) (bench : Bench σ) : Factory σ :=
  { f with workshop := { f.workshop with bench } }

theorem Untapped.onBench (h : f.Untapped) (bench : Bench σ) : (f.onBench bench).Untapped :=
  ⟨⟨h.workshop.resolver, h.workshop.afterResolve, h.workshop.createModule, h.workshop.moduleHook⟩,
    h.beforeResolve, h.factoryHook⟩

/-- A request becomes what the default resolver gives for it. -/
theorem build_of_untapped (h : f.Untapped) (s : Setup) (r : ImportRequest) :
    build s r f
      = ((defaultResolver s (placed s r) f.workshop.bench).1.bind Resolved.settle,
          f.onBench (defaultResolver s (placed s r) f.workshop.bench).2) := by
  unfold build
  rw [Action.bind_apply, callBeforeResolve_of_untapped h.beforeResolve]
  simp only
  rw [Action.bind_apply, callFactory_of_untapped h.factoryHook]
  simp only
  unfold inWorkshop
  rw [defaultFactory_of_untapped h.workshop]
  rfl

/-- A call taps no hook, and a new module is one that the setup makes. -/
theorem createNew_of_untapped (h : f.Untapped) (s : FactorySetup) (alive : Nat → Bool)
    (r : ImportRequest) :
    (createNew s alive r f).2.Untapped
      ∧ ∀ m, (createNew s alive r f).1 = .ok (some m) → s.Makes m.value := by
  unfold createNew
  rw [Action.bind_apply, build_of_untapped h]
  have hbench := h.onBench (defaultResolver s.toSetup (placed s.toSetup r) f.workshop.bench).2
  cases hmade : (defaultResolver s.toSetup (placed s.toSetup r) f.workshop.bench).1.bind
      Resolved.settle with
  | error e => exact ⟨hbench, nofun⟩
  | ok made =>
    cases made with
    | none => exact ⟨hbench, nofun⟩
    | some m =>
      have hmakes : s.Makes m := Setup.makes_of_settle hmade
      simp only
      rw [Action.bind_apply]
      by_cases ha : s.accepts m = true
      · simp only [share, ha, if_true]
        refine ⟨⟨hbench.workshop, hbench.beforeResolve, hbench.factoryHook⟩, fun m' hm => ?_⟩
        cases hm
        exact hmakes
      · simp only [share, ha]
        refine ⟨⟨hbench.workshop, hbench.beforeResolve, hbench.factoryHook⟩, fun m' hm => ?_⟩
        cases hm
        exact hmakes

/-- If all remembered modules are ones that the setup makes, so are the one
that a call gives and all that are remembered after it. -/
theorem create_of_untapped (h : f.Untapped) (hcache : f.cache.All fun m => s.Makes m.value)
    (alive : Nat → Bool) (r : ImportRequest) :
    (create s alive r f).2.Untapped
      ∧ ((create s alive r f).2.cache.All fun m => s.Makes m.value)
      ∧ ∀ m, (create s alive r f).1 = .ok (some m) → s.Makes m.value := by
  cases hr : f.remembered? alive r with
  | some m =>
    rw [create_of_remembered hr]
    refine ⟨h, hcache, fun m' hm => ?_⟩
    cases hm
    obtain ⟨first, -, hget⟩ := Option.bind_eq_some_iff.1 hr
    exact hcache.get? hget
  | none =>
    have hnew : (create s alive r f).2.Untapped
        ∧ ∀ m, (create s alive r f).1 = .ok (some m) → s.Makes m.value := by
      rcases create_of_not_remembered hr s with hcreate | hcreate
      · rw [hcreate]
        exact ⟨h, nofun⟩
      · rw [hcreate]
        exact createNew_of_untapped h s alive r
    refine ⟨hnew.1, ?_, hnew.2⟩
    rcases create_cases s alive r f with ⟨m, hm, -⟩ | ⟨-, m, hok, -, hafter⟩ | ⟨-, -, hafter⟩
    · rw [hr] at hm
      cases hm
    · rw [hafter]
      exact hcache.rememberAll alive r.dependencies (hnew.2 m hok)
    · rwa [hafter]

/-- A factory on which nobody has tapped a hook and which has been called
with one setup only. Between calls the world may change, and parsers and
generators may be made or tapped. -/
inductive Session (s : FactorySetup) : Factory σ → Prop where
  | start {f : Factory σ} (huntapped : f.Untapped) (hempty : f.cache = .empty) : Session s f
  | call {f : Factory σ} (h : Session s f) (alive : Nat → Bool) (r : ImportRequest) :
    Session s (create s alive r f).2
  | others {f f' : Factory σ} (h : Session s f) (huntapped : f'.Untapped)
    (hcache : f'.cache = f.cache) : Session s f'

theorem Session.sound (h : Session s f) :
    f.Untapped ∧ f.cache.All fun m => s.Makes m.value := by
  induction h with
  | start huntapped hempty =>
    rw [hempty]
    exact ⟨huntapped, DependencyCache.all_empty _⟩
  | call _ alive r ih =>
    obtain ⟨huntapped, hcache, -⟩ := create_of_untapped ih.1 ih.2 alive r
    exact ⟨huntapped, hcache⟩
  | others _ huntapped hcache ih =>
    rw [hcache]
    exact ⟨huntapped, ih.2⟩

/-- Every module that a call gives is one that the setup makes. -/
theorem Session.makes_of_create (h : Session s f) {alive : Nat → Bool} {r : ImportRequest}
    {m : Shared Module} (hm : (create s alive r f).1 = .ok (some m)) : s.Makes m.value :=
  (create_of_untapped h.sound.1 h.sound.2 alive r).2.2 m hm

end Factory

end ImportChain
