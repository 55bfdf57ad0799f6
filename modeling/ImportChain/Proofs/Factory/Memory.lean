/-
ImportChain.Proofs.Factory.Memory — which modules a factory remembers.

A call that finds a module for its first dependency gives that one and does
nothing else. Any other call asks its hooks, which cannot touch what is
remembered (`build_keeps_cache`), and then remembers the module for every
dependency that the request came with, or nothing: `create_cases` is all
that a call can do to the cache.

`create_hit_iff` is the main statement, about every run of calls: a call
finds a module exactly if an earlier one left one for its dependency.
-/
import ImportChain.Proofs.Cache.Identity
import ImportChain.Proofs.Chain.Assembly

namespace ImportChain

/-! ## Actions that keep a part of their state -/

namespace Action

variable {τ α β γ : Type} {part : τ → γ}

/-- Whether a part of the state is the same after an action. -/
def Keeps (part : τ → γ) (x : Action τ α) : Prop := ∀ t, part (x t).2 = part t

theorem Keeps.pure (a : α) : Keeps part (Pure.pure a : Action τ α) := fun _ => rfl

theorem Keeps.bind {x : Action τ α} {f : α → Action τ β} (hx : Keeps part x)
    (hf : ∀ a, Keeps part (f a)) : Keeps part (x >>= f) := by
  intro t
  have hxt := hx t
  rw [bind_apply]
  cases hr : x t with
  | mk result t' =>
    rw [hr] at hxt
    cases result with
    | error e => exact hxt
    | ok a => exact (hf a t').trans hxt

end Action

/-! ## One call -/

namespace Factory

variable {σ : Type} {f : Factory σ} {alive : Nat → Bool} {s : FactorySetup} {r : ImportRequest}

/-- The module that is remembered for the first dependency of a request. -/
def remembered? (alive : Nat → Bool) (r : ImportRequest) (f : Factory σ) : Option (Shared Module) :=
  r.dependencies.head?.bind (f.cache.get? alive)

/-- A cache after a module has been remembered for dependencies. -/
def rememberAll (alive : Nat → Bool) (dependencies : List Dependency) (m : Shared Module)
    (c : DependencyCache (Shared Module)) : DependencyCache (Shared Module) :=
  dependencies.foldl (fun c d => c.insert alive d m) c

/-- Whatever the hooks do, they do not touch what is remembered. -/
theorem build_keeps_cache (s : Setup) (r : ImportRequest) :
    Action.Keeps Factory.cache (build s r : Action (Factory σ) (Option Module)) := by
  refine Action.Keeps.bind (fun _ => rfl) fun rewritten => ?_
  cases rewritten with
  | none => exact Action.Keeps.pure none
  | some r =>
    refine Action.Keeps.bind (fun _ => rfl) fun factory => ?_
    cases factory with
    | none => exact Action.Keeps.pure none
    | some factory => exact fun _ => rfl

/-- A new module is remembered for the dependencies of the request if it is
accepted; otherwise nothing is. -/
theorem createNew_cases (s : FactorySetup) (alive : Nat → Bool) (r : ImportRequest)
    (f : Factory σ) :
    (∃ m, (createNew s alive r f).1 = .ok (some m) ∧ s.accepts m.value = true
        ∧ (createNew s alive r f).2.cache = rememberAll alive r.dependencies m f.cache)
      ∨ ((∀ m, (createNew s alive r f).1 = .ok (some m) → s.accepts m.value = false)
        ∧ (createNew s alive r f).2.cache = f.cache) := by
  have hcache := build_keeps_cache s.toSetup r f
  unfold createNew
  rw [Action.bind_apply]
  cases hb : build s.toSetup r f with
  | mk result f' =>
    rw [hb] at hcache
    cases result with
    | error e => exact Or.inr ⟨fun m hm => (nomatch hm), hcache⟩
    | ok made =>
      cases made with
      | none => exact Or.inr ⟨fun m hm => (nomatch hm), hcache⟩
      | some m =>
        simp only
        rw [Action.bind_apply]
        by_cases ha : s.accepts m = true
        · refine Or.inl ⟨⟨f'.next, m⟩, ?_, ha, ?_⟩
          · simp only [share, ha, if_true]
            rfl
          · rw [← hcache]
            simp only [share, ha, if_true]
            rfl
        · have ha' : s.accepts m = false := by simpa using ha
          refine Or.inr ⟨fun m' hm => ?_, ?_⟩
          · simp only [share, ha', Bool.false_eq_true, if_false] at hm
            cases hm
            exact ha'
          · rw [← hcache]
            simp only [share, ha', Bool.false_eq_true, if_false]
            rfl

/-- A remembered module is all that a call gives and all that it looks at. -/
theorem create_of_remembered {m : Shared Module} (h : f.remembered? alive r = some m)
    (s : FactorySetup) : create s alive r f = (.ok (some m), f) := by
  unfold remembered? at h
  unfold create
  cases hd : r.dependencies with
  | nil =>
    rw [hd] at h
    cases h
  | cons first rest =>
    rw [hd] at h
    have hget : f.cache.get? alive first = some m := h
    simp only [hget]

/-- A call that finds no module makes one, unless it comes without a
dependency. -/
theorem create_of_not_remembered (h : f.remembered? alive r = none) (s : FactorySetup) :
    create s alive r f = (.error .emptyDependency, f)
      ∨ create s alive r f = createNew s alive r f := by
  unfold remembered? at h
  unfold create
  cases hd : r.dependencies with
  | nil => exact Or.inl rfl
  | cons first rest =>
    rw [hd] at h
    have hget : f.cache.get? alive first = none := h
    exact Or.inr (by simp only [hget])

/-- All that a call can do to what is remembered. -/
theorem create_cases (s : FactorySetup) (alive : Nat → Bool) (r : ImportRequest) (f : Factory σ) :
    (∃ m, f.remembered? alive r = some m ∧ create s alive r f = (.ok (some m), f))
      ∨ (f.remembered? alive r = none
        ∧ ∃ m, (create s alive r f).1 = .ok (some m) ∧ s.accepts m.value = true
          ∧ (create s alive r f).2.cache = rememberAll alive r.dependencies m f.cache)
      ∨ (f.remembered? alive r = none
        ∧ (∀ m, (create s alive r f).1 = .ok (some m) → s.accepts m.value = false)
        ∧ (create s alive r f).2.cache = f.cache) := by
  cases hr : f.remembered? alive r with
  | some m => exact Or.inl ⟨m, rfl, create_of_remembered hr s⟩
  | none =>
    right
    rcases create_of_not_remembered hr s with hcreate | hcreate
    · refine Or.inr ⟨rfl, fun m hm => ?_, ?_⟩
      · rw [hcreate] at hm
        cases hm
      · rw [hcreate]
    · rw [hcreate]
      rcases createNew_cases s alive r f with h | h
      · exact Or.inl ⟨rfl, h⟩
      · exact Or.inr ⟨rfl, h⟩

/-! ## Runs of calls -/

/-- One call of a run. -/
structure Visit where
  setup : FactorySetup
  request : ImportRequest
  /-- Whether the module was remembered. -/
  hit : Bool
  result : Except FactoryError (Option (Shared Module))

/-- The module that a call left for a dependency, if it made one and the
dependency came with the request. -/
def Visit.left? (v : Visit) (d : Dependency) : Option (Shared Module) :=
  match v.hit, v.result with
  | false, .ok (some m) =>
    if d ∈ v.request.dependencies ∧ v.setup.accepts m.value = true then some m else none
  | _, _ => none

/-- The call of a request. -/
def visit (s : FactorySetup) (alive : Nat → Bool) (r : ImportRequest) (f : Factory σ) : Visit :=
  ⟨s, r, (f.remembered? alive r).isSome, (create s alive r f).1⟩

/-- A factory that starts without modules and is called, one call after the
other, by those who hold the dependencies of their requests; with the calls
so far, the latest first. The setup comes with each call, so that delegate
and predicate may answer otherwise the next time. -/
inductive Run : Handles → Factory σ → List Visit → Prop where
  | start {f : Factory σ} (hempty : f.cache = .empty) : Run {} f []
  | hold {h h' : Handles} {f : Factory σ} {visits : List Visit} (hrun : Run h f visits)
    (hstep : h.Step h') : Run h' f visits
  /-- Taps are registered, or the world changes. -/
  | others {h : Handles} {f f' : Factory σ} {visits : List Visit} (hrun : Run h f visits)
    (hcache : f'.cache = f.cache) (hnext : f'.next = f.next) : Run h f' visits
  | call {h : Handles} {f : Factory σ} {visits : List Visit} (hrun : Run h f visits)
    (s : FactorySetup) {r : ImportRequest} (hheld : ∀ d ∈ r.dependencies, d ∈ h.held) :
    Run h (create s h.alive r f).2 (visit s h.alive r f :: visits)

/-- What the calls of a run have left for a dependency: the module of the
latest that left any. -/
def left (visits : List Visit) (d : Dependency) : Option (Shared Module) :=
  visits.findSome? (·.left? d)

theorem left?_eq_some_iff {v : Visit} {d : Dependency} {m : Shared Module} :
    v.left? d = some m
      ↔ v.hit = false ∧ d ∈ v.request.dependencies ∧ v.result = .ok (some m)
        ∧ v.setup.accepts m.value = true := by
  obtain ⟨s, r, hit, result⟩ := v
  unfold Visit.left?
  cases hit with
  | true => simp
  | false =>
    cases result with
    | error e => simp
    | ok made =>
      cases made with
      | none => simp
      | some m' =>
        simp only [Option.ite_none_right_eq_some, Option.some.injEq, Except.ok.injEq, true_and]
        constructor
        · rintro ⟨⟨hd, ha⟩, rfl⟩
          exact ⟨hd, rfl, ha⟩
        · rintro ⟨hd, rfl, ha⟩
          exact ⟨⟨hd, ha⟩, rfl⟩

theorem left_cons (v : Visit) (visits : List Visit) (d : Dependency) :
    left (v :: visits) d = (v.left? d).or (left visits d) := by
  unfold left
  rw [List.findSome?_cons]
  cases v.left? d <;> rfl

theorem refines_rememberAll {h : Handles} {m : Shared Module} :
    ∀ {dependencies : List Dependency} {c : DependencyCache (Shared Module)}
      {known : Dependency → Option (Shared Module)},
      (∀ d ∈ dependencies, d ∈ h.held) → c.Refines h known →
        (rememberAll h.alive dependencies m c).Refines h
          fun d => if d ∈ dependencies then some m else known d
  | [], _, _, _, hr => by simpa [rememberAll] using hr
  | first :: rest, c, known, hheld, hr => by
      have hnext := refines_rememberAll (m := m)
        (fun d hd => hheld d (List.mem_cons_of_mem _ hd))
        (hr.insert (hheld first List.mem_cons_self) m)
      have hmap : (fun d => if d ∈ rest then some m else Function.update known first (some m) d)
          = fun d => if d ∈ first :: rest then some m else known d := by
        funext d
        by_cases hd : d = first
        · simp [hd]
        · simp [hd]
      rw [← hmap]
      exact hnext

/-- A call adds to the cache what it leaves. -/
theorem refines_create {h : Handles} {visits : List Visit}
    (hr : f.cache.Refines h (left visits)) (s : FactorySetup)
    (hheld : ∀ d ∈ r.dependencies, d ∈ h.held) :
    (create s h.alive r f).2.cache.Refines h (left (visit s h.alive r f :: visits)) := by
  rcases create_cases s h.alive r f with ⟨m, hm, hcreate⟩ | ⟨hm, m, hok, ha, hcache⟩
    | ⟨-, hno, hcache⟩
  · have hleft : left (visit s h.alive r f :: visits) = left visits := by
      funext d
      rw [left_cons, visit, hm]
      rfl
    rw [hleft, hcreate]
    exact hr
  · have hleft : left (visit s h.alive r f :: visits)
        = fun d => if d ∈ r.dependencies then some m else left visits d := by
      funext d
      rw [left_cons, visit, hm, hok]
      by_cases hd : d ∈ r.dependencies <;> simp [Visit.left?, hd, ha]
    rw [hleft, hcache]
    exact refines_rememberAll hheld hr
  · have hleft : left (visit s h.alive r f :: visits) = left visits := by
      funext d
      have hnone : (visit s h.alive r f).left? d = none := by
        refine Option.eq_none_iff_forall_ne_some.2 fun m he => ?_
        obtain ⟨-, -, hok, ha⟩ := left?_eq_some_iff.1 he
        have hrejects : s.accepts m.value = false := hno m hok
        exact absurd (hrejects.symm.trans ha) (by decide)
      rw [left_cons, hnone]
      rfl
    rw [hleft, hcache]
    exact hr

theorem Run.refines {h : Handles} {visits : List Visit} (hrun : Run h f visits) :
    f.cache.Refines h (left visits) := by
  induction hrun with
  | start hempty =>
    rw [hempty]
    exact DependencyCache.Refines.empty Handles.sound_empty
  | hold _ hstep ih => exact ih.step hstep
  | others _ hcache _ ih =>
    rw [hcache]
    exact ih
  | call _ s hheld ih => exact refines_create ih s hheld

/-- In a run of calls, a call finds a module exactly if an earlier one that
did not find its own made one, came with the dependency and was accepted,
and then it gives the module of the latest such call. To do so it looks at
nothing but the cache and changes nothing. A call that makes a module
which is accepted has it remembered for the dependencies that its request
came with, whatever the hooks made of them; any other leaves the cache as
it was. -/
theorem create_hit_iff {h : Handles} {visits : List Visit} (hrun : Run h f visits)
    (s : FactorySetup) {r : ImportRequest} (hheld : ∀ d ∈ r.dependencies, d ∈ h.held) :
    (∀ first, r.dependencies.head? = some first →
      ((f.remembered? h.alive r).isSome = true
        ↔ ∃ v ∈ visits, v.hit = false ∧ first ∈ v.request.dependencies
          ∧ ∃ m, v.result = .ok (some m) ∧ v.setup.accepts m.value = true)
      ∧ f.remembered? h.alive r = left visits first)
    ∧ (∀ m, f.remembered? h.alive r = some m →
      ∀ (s' : FactorySetup) (f' : Factory σ), f'.cache = f.cache →
        create s' h.alive r f' = (.ok (some m), f'))
    ∧ (f.remembered? h.alive r = none →
      ∀ m, (create s h.alive r f).1 = .ok (some m) → s.accepts m.value = true →
        ∀ d ∈ h.held, (create s h.alive r f).2.cache.get? h.alive d
          = if d ∈ r.dependencies then some m else f.cache.get? h.alive d)
    ∧ ((∀ m, (create s h.alive r f).1 = .ok (some m) → s.accepts m.value = false) →
      (create s h.alive r f).2.cache = f.cache) := by
  have hr := hrun.refines
  refine ⟨fun first hfirst => ?_, fun m hm s' f' hcache => ?_, fun hm m hok ha d hd => ?_,
    fun hno => ?_⟩
  · have hmem : first ∈ h.held := hheld first (List.mem_of_mem_head? hfirst)
    have hleft : f.remembered? h.alive r = left visits first := by
      unfold remembered?
      rw [hfirst]
      exact hr.get?_eq hmem
    refine ⟨?_, hleft⟩
    rw [hleft, left, List.isSome_findSome?, List.any_eq_true]
    constructor
    · rintro ⟨v, hv, hsome⟩
      obtain ⟨m, hm⟩ := Option.isSome_iff_exists.1 hsome
      obtain ⟨hhit, hd, hok, ha⟩ := left?_eq_some_iff.1 hm
      exact ⟨v, hv, hhit, hd, m, hok, ha⟩
    · rintro ⟨v, hv, hhit, hd, m, hok, ha⟩
      exact ⟨v, hv, Option.isSome_iff_exists.2 ⟨m, left?_eq_some_iff.2 ⟨hhit, hd, hok, ha⟩⟩⟩
  · refine create_of_remembered ?_ s'
    unfold remembered? at hm ⊢
    rw [hcache]
    exact hm
  · rcases create_cases s h.alive r f with ⟨m', hm', -⟩ | ⟨-, m', hok', -, hcache⟩ | ⟨-, hno, -⟩
    · rw [hm] at hm'
      cases hm'
    · rw [hok] at hok'
      cases hok'
      rw [hcache, (refines_rememberAll hheld hr).get?_eq hd, hr.get?_eq hd]
    · rw [hno m hok] at ha
      cases ha
  · rcases create_cases s h.alive r f with ⟨m, -, hcreate⟩ | ⟨-, m, hok, ha, -⟩ | ⟨-, -, hcache⟩
    · rw [hcreate]
    · rw [hno m hok] at ha
      cases ha
    · exact hcache

/-- Everything that the layers give is remembered. -/
def rememberingSetup : FactorySetup := { layeredSetup with accepts := fun _ => true }

/-- A factory with a tap that takes the dependencies from a request. -/
def strippingFactory : Factory Unit :=
  { (Factory.new () : Factory Unit).withBuiltins with
    beforeResolve := ⟨"beforeResolve",
      [.plain "strip" fun (value, _) world =>
        (.ok (.replace (value.map fun r => { r with dependencies := [] })), world)]⟩ }

/-- Handles to three dependencies, two of them with one request. -/
def threeHandles : Handles :=
  ((({} : Handles).allocate 0 "./a.js").allocate 8 "./a.js").allocate 16 "./b.js"

/-- A request of the first two dependencies. -/
def twoEdges : ImportRequest := .ofDependencies [⟨0, 0, "./a.js"⟩, ⟨8, 1, "./a.js"⟩]

/-- A request of the last two dependencies. -/
def nextEdges : ImportRequest := .ofDependencies [⟨8, 1, "./a.js"⟩, ⟨16, 2, "./b.js"⟩]

/-- The module of a request is found for its second dependency, which a tap
took from the request, and the call that finds it changes nothing. -/
theorem create_hit_of_second_dependency :
    ∃ (f : Factory Unit) (visits : List Visit) (m : Shared Module),
      Run threeHandles f visits
      ∧ (∀ d ∈ nextEdges.dependencies, d ∈ threeHandles.held)
      ∧ m.value.identifier = "/app/c-loader!/app/d-loader!/app/./a.js"
      ∧ create rememberingSetup threeHandles.alive nextEdges f = (.ok (some m), f) := by
  have hstart : Run threeHandles strippingFactory [] :=
    (((Run.start rfl).hold (.allocate 0 "./a.js" (by decide))).hold
      (.allocate 8 "./a.js" (by decide))).hold (.allocate 16 "./b.js" (by decide))
  have hrun := hstart.call rememberingSetup (r := twoEdges) (by decide)
  have hheld : ∀ d ∈ nextEdges.dependencies, d ∈ threeHandles.held := by decide
  obtain ⟨hhit, hgives, -, -⟩ := create_hit_iff hrun rememberingSetup hheld
  have hmiss : strippingFactory.remembered? threeHandles.alive twoEdges = none := by decide +kernel
  have hmade : (create rememberingSetup threeHandles.alive twoEdges strippingFactory).1.toOption.map
      (fun made => made.map fun m => m.value.identifier)
      = some (some "/app/c-loader!/app/d-loader!/app/./a.js") := by decide +kernel
  cases hresult : (create rememberingSetup threeHandles.alive twoEdges strippingFactory).1 with
  | error e =>
    rw [hresult] at hmade
    cases hmade
  | ok made =>
    rw [hresult] at hmade
    cases made with
    | none => cases hmade
    | some m =>
      have hleft : left [visit rememberingSetup threeHandles.alive twoEdges strippingFactory]
          ⟨8, 1, "./a.js"⟩ = some m := by
        rw [left_cons, left?_eq_some_iff.2 ⟨by simp [visit, hmiss], by decide, hresult, rfl⟩]
        rfl
      refine ⟨_, _, m, hrun, hheld, Option.some.inj (Option.some.inj hmade), ?_⟩
      exact hgives m ((hhit ⟨8, 1, "./a.js"⟩ rfl).2.trans hleft) rememberingSetup _ rfl

end Factory

end ImportChain
