/-
ImportChain.Proofs.Factory.Instances — who built the parser or generator
that is handed out.

A registry hands out what is filed under a key and files what it builds, so
that everything filed was built by an earlier call with the same key
(`Bench.Recorded`). Instances are numbered as they are built, and no two
builds give the same one. A key tells type and options apart under the
conditions of `instanceKey_eq_iff`.

`Bench.builds_of_run` is the main statement, about every sequence of calls:
calls for a parser or a generator, calls of the default resolver, and calls
of a factory whose factory and resolver functions are the default ones.
Types with a `|` in them do share instances with others
(`Bench.parser_of_another_type`).
-/
import ImportChain.Proofs.Cache.Key
import ImportChain.Proofs.Factory.Registry
import ImportChain.Proofs.Factory.Untapped

namespace ImportChain

/-! ## Taps that give a result -/

/-- The result of a bail is one that a tap gave for the argument. -/
theorem Hook.exists_tap_of_runBail {σ α ρ : Type} {hook : String} {arg : α} {result : ρ} :
    ∀ (taps : List (Tap σ α (Except HookError (Option ρ)))) (world : σ),
      (runBail hook taps arg world).result = .ok (some result) →
        ∃ t ∈ taps, ∃ before after, t.run arg before = (.ok (some result), after)
  | [], _, h => by cases h
  | t :: rest, world, h => by
      unfold runBail at h
      cases ht : t.run arg world with
      | mk answer after =>
        rw [ht] at h
        cases answer with
        | error e => cases h
        | ok found =>
          cases found with
          | some found =>
            cases h
            exact ⟨t, List.mem_cons_self, world, after, ht⟩
          | none =>
            obtain ⟨t', hmem, hrun⟩ := exists_tap_of_runBail rest after h
            exact ⟨t', List.mem_cons_of_mem _ hmem, hrun⟩

/-! ## One registry -/

namespace Registry

variable {σ : Type} {r : Registry σ} {moduleType : String} {world : σ}

/-- Whether a creator of a type gives a value for options. -/
def Creates (r : Registry σ) (moduleType : String) (options : Json) (value : Instance) : Prop :=
  ∃ t ∈ (r.creators.hook moduleType).taps, ∃ before after,
    t.run options before = (.ok (some value), after)

/-- A new instance is what a creator gives, with the next number. -/
theorem create_cases (r : Registry σ) (moduleType : String) (options : Json) (world : σ) :
    (∃ made, (create moduleType options (r, world)).1 = .ok made
        ∧ r.Creates moduleType options made.value ∧ made.serial = r.next
        ∧ (create moduleType options (r, world)).2.1.next = r.next + 1)
      ∨ ((∃ e, (create moduleType options (r, world)).1 = .error e)
        ∧ (create moduleType options (r, world)).2.1.next = r.next) := by
  unfold create
  cases hr : ((r.creators.hook moduleType).bail options world).result with
  | error e => exact Or.inr ⟨⟨.hook e, by simp only [hr]⟩, by simp only [hr]⟩
  | ok found =>
    cases found with
    | none =>
      exact Or.inr ⟨⟨.unregistered r.capability moduleType, by simp only [hr]⟩, by simp only [hr]⟩
    | some value =>
      refine Or.inl ⟨⟨r.next, value⟩, ?_, Hook.exists_tap_of_runBail _ _ hr, rfl, ?_⟩ <;> simp only [hr]

/-- All that a call can do: hand out what is filed, file a new instance, or
fail. -/
theorem get_cases (r : Registry σ) (moduleType : String) (options : Option Json) (world : σ) :
    (∃ made, r.made.get? (instanceKey moduleType options) = some made
        ∧ get moduleType options (r, world) = (.ok made, r, world))
      ∨ (r.made.get? (instanceKey moduleType options) = none
        ∧ ∃ made, (get moduleType options (r, world)).1 = .ok made
          ∧ r.Creates moduleType (options.getD .empty) made.value ∧ made.serial = r.next
          ∧ (get moduleType options (r, world)).2.1.next = r.next + 1
          ∧ (get moduleType options (r, world)).2.1.made
            = ⟨r.made.entries.insert (instanceKey moduleType options) made⟩)
      ∨ ((∃ e, (get moduleType options (r, world)).1 = .error e)
        ∧ (get moduleType options (r, world)).2.1.next = r.next
        ∧ (get moduleType options (r, world)).2.1.made = r.made) := by
  cases hkey : r.made.get? (instanceKey moduleType options) with
  | some made => exact Or.inl ⟨made, rfl, get_of_made hkey⟩
  | none =>
    right
    have hcreate := create_cases r moduleType (options.getD .empty) world
    rw [get_of_missing hkey]
    cases hmade : create moduleType (options.getD .empty) (r, world) with
    | mk result rest =>
      rw [hmade] at hcreate
      rcases hcreate with ⟨made, hok, hcreates, hserial, hnext⟩ | ⟨⟨e, he⟩, hnext⟩
      · cases hok
        exact Or.inl ⟨rfl, made, rfl, hcreates, hserial, hnext, rfl⟩
      · cases he
        exact Or.inr ⟨⟨e, rfl⟩, hnext, rfl⟩

end Registry

/-! ## Calls on a bench -/

namespace Bench

variable {σ : Type}

def registry (b : Bench σ) : Capability → Registry σ
  | .parser => b.parsers
  | .generator => b.generators

/-- The parser or the generator for a type with options. -/
def fetch (capability : Capability) (moduleType : String) (options : Option Json) :
    Action (Bench σ) (Shared Instance) :=
  match capability with
  | .parser => parser moduleType options
  | .generator => generator moduleType options

/-- A call for a parser or a generator. -/
structure Fetch (σ : Type) where
  capability : Capability
  moduleType : String
  options : Option Json
  /-- The bench before the call. -/
  bench : Bench σ

namespace Fetch

def result (v : Fetch σ) : Except FactoryError (Shared Instance) :=
  (fetch v.capability v.moduleType v.options v.bench).1

/-- The bench after a call. -/
def after (v : Fetch σ) : Bench σ := (fetch v.capability v.moduleType v.options v.bench).2

def key (v : Fetch σ) : String := instanceKey v.moduleType v.options

def label (v : Fetch σ) : OptionsLabel := .ofOptions v.options

/-- The registry that a call asks. -/
def asks (v : Fetch σ) : Registry σ := v.bench.registry v.capability

/-- Whether a call builds an instance: a creator of its type gives the value
for its options, where nothing is filed under its key. -/
structure Builds (v : Fetch σ) (made : Shared Instance) : Prop where
  given : v.result = .ok made
  missing : v.asks.made.get? v.key = none
  created : v.asks.Creates v.moduleType (v.options.getD .empty) made.value
  numbered : made.serial = v.asks.next

theorem result_eq (v : Fetch σ) :
    v.result = (Registry.get v.moduleType v.options (v.asks, v.bench.world)).1 := by
  obtain ⟨capability, moduleType, options, b⟩ := v
  cases capability <;> rfl

/-- A call works on the registry that it asks. -/
theorem registry_after (v : Fetch σ) :
    v.after.registry v.capability
      = (Registry.get v.moduleType v.options (v.asks, v.bench.world)).2.1 := by
  obtain ⟨capability, moduleType, options, b⟩ := v
  cases capability <;> rfl

theorem world_after (v : Fetch σ) :
    v.after.world = (Registry.get v.moduleType v.options (v.asks, v.bench.world)).2.2 := by
  obtain ⟨capability, moduleType, options, b⟩ := v
  cases capability <;> rfl

theorem registry_after_of_ne (v : Fetch σ) {capability : Capability} (h : capability ≠ v.capability) :
    v.after.registry capability = v.bench.registry capability := by
  obtain ⟨asked, moduleType, options, b⟩ := v
  cases capability <;> cases asked <;> first | rfl | exact absurd rfl h

/-- All that a call can do to the registry that it asks. -/
theorem cases_after (v : Fetch σ) :
    (∃ made, v.result = .ok made ∧ v.asks.made.get? v.key = some made
        ∧ v.after.registry v.capability = v.asks)
      ∨ (∃ made, v.Builds made ∧ (v.after.registry v.capability).next = v.asks.next + 1
        ∧ (v.after.registry v.capability).made = ⟨v.asks.made.entries.insert v.key made⟩)
      ∨ ((∃ e, v.result = .error e) ∧ (v.after.registry v.capability).next = v.asks.next
        ∧ (v.after.registry v.capability).made = v.asks.made) := by
  rw [registry_after]
  rcases Registry.get_cases v.asks v.moduleType v.options v.bench.world with
    ⟨made, hfiled, hget⟩ | ⟨hmissing, made, hok, hcreates, hserial, hnext, hmade⟩
      | ⟨herror, hnext, hmade⟩
  · refine Or.inl ⟨made, ?_, hfiled, ?_⟩
    · rw [result_eq, hget]
    · rw [hget]
  · exact Or.inr (Or.inl ⟨made, ⟨v.result_eq.trans hok, hmissing, hcreates, hserial⟩, hnext, hmade⟩)
  · refine Or.inr (Or.inr ⟨?_, hnext, hmade⟩)
    rwa [result_eq]

/-- After a build the next number follows the one that was given. -/
theorem Builds.next_after {v : Fetch σ} {made : Shared Instance} (h : v.Builds made) :
    (v.after.registry v.capability).next = made.serial + 1 := by
  rcases v.cases_after with ⟨_, -, hfiled, -⟩ | ⟨_, -, hnext, -⟩ | ⟨⟨e, he⟩, -⟩
  · rw [h.missing] at hfiled
    cases hfiled
  · rw [hnext, h.numbered]
  · rw [h.given] at he
    cases he

end Fetch

/-! ## Runs of calls -/

/-- Whether two benches have the same instances. -/
structure SameInstances (b b' : Bench σ) : Prop where
  made : ∀ capability, (b'.registry capability).made = (b.registry capability).made
  next : ∀ capability, (b'.registry capability).next = (b.registry capability).next

/-- A bench that starts without instances and is called again and again;
with the calls so far, the latest first. -/
inductive Run : Bench σ → List (Fetch σ) → Prop where
  | start {b : Bench σ} (hempty : ∀ capability, (b.registry capability).made = .empty) : Run b []
  /-- Taps are registered, the delegate is asked, or the world changes. -/
  | others {b b' : Bench σ} {fetches : List (Fetch σ)} (h : Run b fetches)
    (hsame : b.SameInstances b') : Run b' fetches
  | call {v : Fetch σ} {fetches : List (Fetch σ)} (h : Run v.bench fetches) :
    Run v.after (v :: fetches)

theorem Run.tail {b : Bench σ} {v : Fetch σ} {older : List (Fetch σ)} (h : Run b (v :: older)) :
    Run v.bench older := by
  generalize hf : v :: older = fetches at h
  induction h with
  | start _ => cases hf
  | others _ _ ih => exact ih hf
  | call h _ =>
    cases hf
    exact h

theorem Run.of_append {older : List (Fetch σ)} : ∀ {newer : List (Fetch σ)} {b : Bench σ},
    Run b (newer ++ older) → ∃ b', Run b' older
  | [], b, h => ⟨b, h⟩
  | _ :: _, _, h => h.tail.of_append

/-- What calls leave on a bench. -/
structure Recorded (b : Bench σ) (fetches : List (Fetch σ)) : Prop where
  /-- What is filed under a key was built by a call with that key. -/
  built : ∀ capability key made, (b.registry capability).made.get? key = some made →
    ∃ u ∈ fetches, u.capability = capability ∧ u.key = key ∧ u.Builds made
  /-- Numbers that have been given are below the next one. -/
  numbered : ∀ u ∈ fetches, ∀ made, u.Builds made → made.serial < (b.registry u.capability).next
  /-- No two calls build one instance. -/
  unique : ∀ made, ∀ u ∈ fetches, ∀ u' ∈ fetches, u.capability = u'.capability →
    u.Builds made → u'.Builds made → u = u'

theorem Recorded.of_sameInstances {b b' : Bench σ} {fetches : List (Fetch σ)}
    (h : b.Recorded fetches) (hsame : b.SameInstances b') : b'.Recorded fetches where
  built capability key made hget := h.built capability key made (hsame.made capability ▸ hget)
  numbered u hu made hbuilds := (hsame.next u.capability).symm ▸ h.numbered u hu made hbuilds
  unique := h.unique

theorem next_le_after (v : Fetch σ) (capability : Capability) :
    (v.bench.registry capability).next ≤ (v.after.registry capability).next := by
  by_cases hc : capability = v.capability
  · subst hc
    rcases v.cases_after with ⟨made, -, -, hsame⟩ | ⟨made, -, hnext, -⟩ | ⟨-, hnext, -⟩
    · rw [hsame]
      exact Nat.le_refl _
    · rw [hnext]
      exact Nat.le_succ _
    · rw [hnext]
      exact Nat.le_refl _
  · exact Nat.le_of_eq (congrArg Registry.next (v.registry_after_of_ne hc).symm)

/-- A call files at most what it builds, with a number that no earlier call
has given. -/
theorem Recorded.call {v : Fetch σ} {fetches : List (Fetch σ)} (h : v.bench.Recorded fetches) :
    v.after.Recorded (v :: fetches) where
  built capability key made hget := by
    have hkept : (v.bench.registry capability).made.get? key = some made →
        ∃ u ∈ v :: fetches, u.capability = capability ∧ u.key = key ∧ u.Builds made := by
      intro hfiled
      obtain ⟨u, hu, hbuilt⟩ := h.built capability key made hfiled
      exact ⟨u, List.mem_cons_of_mem _ hu, hbuilt⟩
    by_cases hc : capability = v.capability
    · subst hc
      rcases v.cases_after with ⟨_, -, -, hsame⟩ | ⟨made', hbuilds, -, hmade⟩ | ⟨-, -, hmade⟩
      · rw [hsame] at hget
        exact hkept hget
      · rw [hmade] at hget
        by_cases hkey : key = v.key
        · have hfiled : some made' = some made := by
            rw [← hget, hkey]
            exact (KeyMap.get?_insert_self _ _ _).symm
          cases hfiled
          exact ⟨v, List.mem_cons_self, rfl, hkey.symm, hbuilds⟩
        · refine hkept ?_
          rw [← hget]
          exact (KeyMap.get?_insert_of_ne _ _ hkey).symm
      · rw [hmade] at hget
        exact hkept hget
    · rw [v.registry_after_of_ne hc] at hget
      exact hkept hget
  numbered u hu made hbuilds := by
    rcases List.mem_cons.1 hu with rfl | hu
    · rw [hbuilds.next_after]
      exact Nat.lt_succ_self _
    · exact Nat.lt_of_lt_of_le (h.numbered u hu made hbuilds) (next_le_after v u.capability)
  unique made u hu u' hu' hcapability hbuilds hbuilds' := by
    -- an earlier build has a number below the one that is given now
    have hlater : ∀ w ∈ fetches, w.capability = v.capability → w.Builds made → ¬ v.Builds made := by
      intro w hw hcap hold hnew
      have hlt := h.numbered w hw made hold
      rw [hcap, hnew.numbered] at hlt
      exact Nat.lt_irrefl _ hlt
    rcases List.mem_cons.1 hu with rfl | hold <;> rcases List.mem_cons.1 hu' with rfl | hold'
    · rfl
    · exact absurd hbuilds (hlater u' hold' hcapability.symm hbuilds')
    · exact absurd hbuilds' (hlater u hold hcapability hbuilds)
    · exact h.unique made u hold u' hold' hcapability hbuilds hbuilds'

theorem Run.recorded {b : Bench σ} {fetches : List (Fetch σ)} (h : Run b fetches) :
    b.Recorded fetches := by
  induction h with
  | @start b hempty =>
    refine ⟨fun capability key made hget => ?_, nofun, nofun⟩
    rw [hempty capability] at hget
    cases hget
  | others _ hsame ih => exact ih.of_sameInstances hsame
  | call _ ih => exact ih.call

/-- What a call of a run gives was built by it or by an earlier one with the
same key. -/
theorem Run.exists_builds {b : Bench σ} {v : Fetch σ} {older : List (Fetch σ)}
    (h : Run b (v :: older)) {made : Shared Instance} (hmade : v.result = .ok made) :
    ∃ u ∈ v :: older, u.capability = v.capability ∧ u.key = v.key ∧ u.Builds made := by
  rcases v.cases_after with ⟨found, hok, hfiled, -⟩ | ⟨built, hbuilds, -⟩ | ⟨⟨e, he⟩, -⟩
  · rw [hmade] at hok
    cases hok
    obtain ⟨u, hu, hbuilt⟩ := h.tail.recorded.built _ _ _ hfiled
    exact ⟨u, List.mem_cons_of_mem _ hu, hbuilt⟩
  · have hgiven := hbuilds.given
    rw [hmade] at hgiven
    cases hgiven
    exact ⟨v, List.mem_cons_self, rfl, rfl, hbuilds⟩
  · rw [hmade] at he
    cases he

/-! ## Calls of the default resolver -/

/-- The call that equips a chain with a parser or a generator. -/
def fetchFor (c : Chain) (capability : Capability) (b : Bench σ) : Fetch σ :=
  ⟨capability, c.moduleType, c.settings.get? capability.text, b⟩

/-- The calls that equip a chain, the latest first: for a parser, and if
there is one for a generator. -/
def equipFetches (c : Chain) (b : Bench σ) : List (Fetch σ) :=
  match (fetchFor c .parser b).result with
  | .ok _ => [fetchFor c .generator (fetchFor c .parser b).after, fetchFor c .parser b]
  | .error _ => [fetchFor c .parser b]

theorem equip_eq (r : ImportRequest) (c : Chain) (b : Bench σ) :
    equip r c b = match (fetchFor c .parser b).result with
      | .error e => (.error e, (fetchFor c .parser b).after)
      | .ok p =>
        ((fetchFor c .generator (fetchFor c .parser b).after).result.map fun g =>
            ⟨c.descriptor r p g, r.info, r.dependencies⟩,
          (fetchFor c .generator (fetchFor c .parser b).after).after) := by
  have hparser : parser c.moduleType (c.settings.get? "parser") b
      = ((fetchFor c .parser b).result, (fetchFor c .parser b).after) := rfl
  have hgenerator : ∀ b' : Bench σ, generator c.moduleType (c.settings.get? "generator") b'
      = ((fetchFor c .generator b').result, (fetchFor c .generator b').after) := fun _ => rfl
  unfold equip
  rw [Action.bind_apply, hparser]
  cases (fetchFor c .parser b).result with
  | error e => rfl
  | ok p =>
    simp only
    rw [Action.bind_apply, hgenerator]
    cases (fetchFor c .generator (fetchFor c .parser b).after).result <;> rfl

/-- What a chain is equipped with is what its calls give. -/
theorem result_of_equip_eq_ok {r : ImportRequest} {c : Chain} {b : Bench σ} {d : ResolvedImport}
    (h : (equip r c b).1 = .ok d) :
    ∃ v ∈ equipFetches c b, ∃ w ∈ equipFetches c b,
      v = fetchFor c .parser b ∧ v.result = .ok d.descriptor.parser
      ∧ w = fetchFor c .generator v.after ∧ w.result = .ok d.descriptor.generator
      ∧ d.descriptor.moduleType = c.moduleType ∧ d.descriptor.settings = c.settings := by
  rw [equip_eq] at h
  unfold equipFetches
  cases hp : (fetchFor c .parser b).result with
  | error e =>
    rw [hp] at h
    cases h
  | ok p =>
    rw [hp] at h
    obtain ⟨g, hg, rfl⟩ := Outcome.map_eq_ok_iff.1 h
    exact ⟨_, by simp, _, List.mem_cons_self, rfl, hp, rfl, hg, rfl, rfl⟩

theorem Run.equip {b : Bench σ} {fetches : List (Fetch σ)} (h : Run b fetches)
    (r : ImportRequest) (c : Chain) :
    Run (Bench.equip r c b).2 (equipFetches c b ++ fetches) := by
  have hfirst : Run (fetchFor c .parser b).after (fetchFor c .parser b :: fetches) :=
    Run.call (v := fetchFor c .parser b) h
  rw [equip_eq]
  unfold equipFetches
  cases (fetchFor c .parser b).result with
  | error e => exact hfirst
  | ok p => exact Run.call (v := fetchFor c .generator (fetchFor c .parser b).after) hfirst

/-- The calls that a request makes of the default resolver. -/
def resolverFetches (s : Setup) (r : ImportRequest) (b : Bench σ) : List (Fetch σ) :=
  match s.resolve r with
  | .ok (.chain c) => equipFetches c (b.asked s r)
  | _ => []

theorem sameInstances_asked (s : Setup) (r : ImportRequest) (b : Bench σ) :
    b.SameInstances (b.asked s r) :=
  ⟨fun capability => by cases capability <;> rfl, fun capability => by cases capability <;> rfl⟩

theorem Run.resolve {b : Bench σ} {fetches : List (Fetch σ)} (h : Run b fetches) (s : Setup)
    (r : ImportRequest) :
    Run (defaultResolver s r b).2 (resolverFetches s r b ++ fetches) := by
  have hasked := h.others (sameInstances_asked s r b)
  unfold resolverFetches
  cases hs : s.resolve r with
  | error e =>
    rw [defaultResolver_of_error hs]
    exact hasked
  | ok result =>
    cases result with
    | ignored standIn =>
      rw [defaultResolver_of_ignored hs]
      exact hasked
    | chain c =>
      rw [defaultResolver_of_chain hs]
      exact hasked.equip r c

/-- The parser and the generator of data are what two calls give, for the
type and the settings of the data. -/
theorem fetches_of_defaultResolver {s : Setup} {r : ImportRequest} {b : Bench σ}
    {d : ResolvedImport} (h : (defaultResolver s r b).1 = .ok (some (.data d))) :
    (∃ v ∈ resolverFetches s r b, v.capability = .parser
        ∧ v.moduleType = d.descriptor.moduleType
        ∧ v.options = d.descriptor.settings.get? "parser" ∧ v.result = .ok d.descriptor.parser)
      ∧ ∃ v ∈ resolverFetches s r b, v.capability = .generator
        ∧ v.moduleType = d.descriptor.moduleType
        ∧ v.options = d.descriptor.settings.get? "generator"
        ∧ v.result = .ok d.descriptor.generator := by
  obtain ⟨c, -, -, hc, -⟩ := defaultResolver_eq_data h
  rw [defaultResolver_of_chain hc] at h
  obtain ⟨equipped, he, hd⟩ := Outcome.map_eq_ok_iff.1 h
  cases hd
  obtain ⟨v, hv, w, hw, rfl, hp, rfl, hg, htype, hsettings⟩ := result_of_equip_eq_ok he
  unfold resolverFetches
  rw [hc, htype, hsettings]
  exact ⟨⟨_, hv, rfl, rfl, rfl, hp⟩, _, hw, rfl, rfl, rfl, hg⟩

/-! ## Actions that only make calls -/

/-- Whether a bench comes from another one by calls for parsers and
generators. -/
def LeadsTo (b b' : Bench σ) : Prop :=
  ∀ fetches, Run b fetches → ∃ new, Run b' (new ++ fetches)

namespace LeadsTo

theorem refl (b : Bench σ) : b.LeadsTo b := fun _ h => ⟨[], h⟩

theorem trans {a b c : Bench σ} (h : a.LeadsTo b) (h' : b.LeadsTo c) : a.LeadsTo c := by
  intro fetches hrun
  obtain ⟨new, hnew⟩ := h fetches hrun
  obtain ⟨newer, hnewer⟩ := h' _ hnew
  exact ⟨newer ++ new, by rwa [List.append_assoc]⟩

theorem of_registries_eq {b b' : Bench σ} (hp : b'.parsers = b.parsers)
    (hg : b'.generators = b.generators) : b.LeadsTo b' := by
  refine fun _ h => ⟨[], h.others ⟨fun capability => ?_, fun capability => ?_⟩⟩
  · cases capability with
    | parser => exact congrArg Registry.made hp
    | generator => exact congrArg Registry.made hg
  · cases capability with
    | parser => exact congrArg Registry.next hp
    | generator => exact congrArg Registry.next hg

theorem defaultResolver (s : Setup) (r : ImportRequest) (b : Bench σ) :
    b.LeadsTo (ImportChain.defaultResolver s r b).2 := fun _ h => ⟨_, h.resolve s r⟩

/-- Two actions in a row only make calls if both do. -/
theorem bind {τ α β : Type} (bench : τ → Bench σ) {x : Action τ α} {f : α → Action τ β} {t : τ}
    (hx : (bench t).LeadsTo (bench (x t).2))
    (hf : ∀ a, (x t).1 = .ok a → (bench (x t).2).LeadsTo (bench (f a (x t).2).2)) :
    (bench t).LeadsTo (bench ((x >>= f) t).2) := by
  rw [Action.bind_apply]
  revert hx hf
  cases x t with
  | mk result t' =>
    intro hx hf
    cases result with
    | error e => exact hx
    | ok a => exact hx.trans (hf a rfl)

end LeadsTo

end Bench

/-! ## Calls of a factory -/

namespace Workshop

variable {σ : Type}

/-- Whether the resolver functions that a hook leaves do nothing on a bench
but make calls. -/
def OnlyAsks (s : Setup) (resolver : WaterfallHook σ (Option (ResolverFn σ)) Unit) : Prop :=
  ∀ world fn, (resolver.waterfall (some (defaultResolver s)) () world).result = .ok (some fn) →
    ∀ (r : ImportRequest) (b : Bench σ), b.LeadsTo (fn r b).2

theorem onlyAsks_of_untapped {resolver : WaterfallHook σ (Option (ResolverFn σ)) Unit}
    (h : resolver.taps = []) (s : Setup) : OnlyAsks s resolver := by
  intro world fn hfn
  rw [Hook.waterfall_of_untapped h] at hfn
  cases hfn
  exact Bench.LeadsTo.defaultResolver s

/-- The hooks around a module do not touch parsers and generators. -/
theorem finish_leadsTo (data : ResolvedImport) (w : Workshop σ) :
    w.bench.LeadsTo (finish data w).2.bench := by
  refine Bench.LeadsTo.bind Workshop.bench (.of_registries_eq rfl rfl) fun seen _ => ?_
  cases seen with
  | none => exact .refl _
  | some data =>
    refine Bench.LeadsTo.bind Workshop.bench ?_ fun m _ => .refl _
    refine Bench.LeadsTo.bind Workshop.bench (.of_registries_eq rfl rfl)
      fun created _ => ?_
    cases created with
    | some m => exact .of_registries_eq rfl rfl
    | none =>
      simp only
      split <;> exact .of_registries_eq rfl rfl

/-- The default factory function only makes the calls of the resolver
function. -/
theorem defaultFactory_leadsTo {w : Workshop σ} {s : Setup} (h : OnlyAsks s w.resolver)
    (r : ImportRequest) : w.bench.LeadsTo (defaultFactory s r w).2.bench := by
  refine Bench.LeadsTo.bind Workshop.bench (.of_registries_eq rfl rfl)
    fun resolver hresolver => ?_
  cases resolver with
  | none => exact .refl _
  | some resolver =>
    have hleft := h w.bench.world resolver (Outcome.mapError_eq_ok_iff.1 hresolver)
    refine Bench.LeadsTo.bind Workshop.bench (hleft r _) fun found _ => ?_
    cases found with
    | none => exact .refl _
    | some found =>
      cases found with
      | module m => exact .refl _
      | data data => exact finish_leadsTo data _

end Workshop

namespace Factory

variable {σ : Type} {f : Factory σ} {s : Setup}

def bench (f : Factory σ) : Bench σ := f.workshop.bench

/-- Whether the functions that the hooks of a factory leave do nothing with
parsers and generators but call for them. -/
structure OnlyAsks (s : Setup) (f : Factory σ) : Prop where
  resolver : Workshop.OnlyAsks s f.workshop.resolver
  factory : ∀ world fn,
    (f.factoryHook.waterfall (some (defaultFactory s)) () world).result = .ok (some fn) →
      ∀ (r : ImportRequest) (w : Workshop σ), w.resolver = f.workshop.resolver →
        w.bench.LeadsTo (fn r w).2.bench

theorem onlyAsks_of_untapped (hfactory : f.factoryHook.taps = [])
    (hresolver : f.workshop.resolver.taps = []) (s : Setup) : f.OnlyAsks s := by
  have hasks := Workshop.onlyAsks_of_untapped hresolver s
  refine ⟨hasks, fun world fn hfn r w hw => ?_⟩
  rw [Hook.waterfall_of_untapped hfactory] at hfn
  cases hfn
  exact Workshop.defaultFactory_leadsTo (hw ▸ hasks) r

theorem build_leadsTo (h : f.OnlyAsks s) (r : ImportRequest) :
    f.bench.LeadsTo (build s r f).2.bench := by
  refine Bench.LeadsTo.bind bench
    (.of_registries_eq rfl rfl) fun rewritten _ => ?_
  cases rewritten with
  | none => exact .refl _
  | some r' =>
    refine Bench.LeadsTo.bind bench
      (.of_registries_eq rfl rfl) fun factory hfactory => ?_
    cases factory with
    | none => exact .refl _
    | some factory =>
      exact h.factory _ factory (Outcome.mapError_eq_ok_iff.1 hfactory) r' _ rfl

theorem createNew_leadsTo {s : FactorySetup} (h : f.OnlyAsks s.toSetup) (alive : Nat → Bool)
    (r : ImportRequest) : f.bench.LeadsTo (createNew s alive r f).2.bench := by
  refine Bench.LeadsTo.bind bench
    (build_leadsTo h r) fun made _ => ?_
  cases made with
  | none => exact .refl _
  | some m =>
    refine Bench.LeadsTo.bind bench
      (.refl _) fun shared _ => ?_
    simp only
    split <;> exact .refl _

/-- A request does nothing with parsers and generators but call for them. -/
theorem create_leadsTo {s : FactorySetup} (h : f.OnlyAsks s.toSetup) (alive : Nat → Bool)
    (r : ImportRequest) : f.bench.LeadsTo (create s alive r f).2.bench := by
  cases hr : f.remembered? alive r with
  | some m =>
    rw [create_of_remembered hr]
    exact .refl _
  | none =>
    rcases create_of_not_remembered hr s with hcreate | hcreate
    · rw [hcreate]
      exact .refl _
    · rw [hcreate]
      exact createNew_leadsTo h alive r

end Factory

namespace Bench

variable {σ : Type} {b : Bench σ} {fetches : List (Fetch σ)}

/-- What is handed out for a type with options was built by that call or by
an earlier one, for the same type with options that go by the same, and by
no other call. The calls may be the default resolver's, whose data holds
what they give, or those of a factory. Types must be plain, and no two
canonical texts that are hashed may have one hash. -/
theorem builds_of_run (hrun : Run b fetches) (htypes : ∀ v ∈ fetches, PlainType v.moduleType)
    (hapart : ∀ v ∈ fetches, ∀ u ∈ fetches, v.label.Apart u.label) :
    (∀ newer v older, fetches = newer ++ v :: older → ∀ made, v.result = .ok made →
      ∃ u ∈ v :: older, u.Builds made ∧ u.capability = v.capability
        ∧ u.moduleType = v.moduleType ∧ u.label = v.label
        ∧ ∀ w ∈ fetches, w.capability = v.capability → w.Builds made → w = u)
    ∧ (∀ s r, Run (defaultResolver s r b).2 (resolverFetches s r b ++ fetches)
      ∧ ∀ d, (defaultResolver s r b).1 = .ok (some (.data d)) →
        (∃ v ∈ resolverFetches s r b, v.capability = .parser
          ∧ v.moduleType = d.descriptor.moduleType
          ∧ v.options = d.descriptor.settings.get? "parser" ∧ v.result = .ok d.descriptor.parser)
        ∧ ∃ v ∈ resolverFetches s r b, v.capability = .generator
          ∧ v.moduleType = d.descriptor.moduleType
          ∧ v.options = d.descriptor.settings.get? "generator"
          ∧ v.result = .ok d.descriptor.generator)
    ∧ ∀ (f : Factory σ) (s : FactorySetup), f.bench = b → f.OnlyAsks s.toSetup →
      ∀ alive r, ∃ new, Run (Factory.create s alive r f).2.bench (new ++ fetches) := by
  refine ⟨?_, fun s r => ⟨hrun.resolve s r, fun d => fetches_of_defaultResolver⟩, ?_⟩
  · intro newer v older hsplit made hmade
    obtain ⟨b', hrun'⟩ := Run.of_append (hsplit ▸ hrun)
    obtain ⟨u, hu, hcapability, hkey, hbuilds⟩ := hrun'.exists_builds hmade
    have hv : v ∈ fetches := by
      rw [hsplit]
      simp
    have hu' : u ∈ fetches := by
      rw [hsplit]
      exact List.mem_append_right _ hu
    obtain ⟨htype, hlabel⟩ :=
      (instanceKey_eq_iff (htypes u hu') (htypes v hv) (hapart u hu' v hv)).1 hkey
    refine ⟨u, hu, hbuilds, hcapability, htype, hlabel, fun w hw hcap hbuilt => ?_⟩
    exact hrun.recorded.unique made w hw u hu' (hcap.trans hcapability.symm) hbuilt hbuilds
  · rintro f s rfl hasks alive r
    exact Factory.create_leadsTo hasks alive r fetches hrun

/-- A call for a parser with a name, among its other options. -/
def strictParser : Fetch Unit :=
  ⟨.parser, "json", some (.obj [("ident", .str "strict"), ("depth", .int 2)]), builtinBench⟩

def plainGenerator : Fetch Unit := ⟨.generator, "json", none, strictParser.after⟩

/-- A call for a parser with nothing but a name. -/
def namedParser : Fetch Unit :=
  ⟨.parser, "json", some (.obj [("ident", .str "strict")]), plainGenerator.after⟩

/-- A parser is found by its name, whatever its other options, and by the
calls of a factory after that. -/
theorem builds_of_namedParser :
    ∃ made u new, namedParser.result = .ok made
      ∧ u ∈ [namedParser, plainGenerator, strictParser] ∧ u.Builds made
      ∧ u.capability = .parser ∧ u.moduleType = "json" ∧ u.label = .named "strict"
      ∧ made.value.options = .obj [("ident", .str "strict"), ("depth", .int 2)]
      ∧ Run (Factory.create Factory.rememberingSetup (fun _ => true) Factory.twoEdges
          ((Factory.new ()).onBench namedParser.after)).2.bench
        (new ++ [namedParser, plainGenerator, strictParser]) := by
  have hrun : Run namedParser.after [namedParser, plainGenerator, strictParser] :=
    ((Run.start (b := builtinBench) (fun capability => by cases capability <;> rfl)).call
      (v := strictParser)).call (v := plainGenerator) |>.call (v := namedParser)
  have hresult : namedParser.result
      = .ok ⟨0, ⟨"json", .obj [("ident", .str "strict"), ("depth", .int 2)]⟩⟩ := by decide +kernel
  have hcalls : ∀ v ∈ [namedParser, plainGenerator, strictParser],
      v.moduleType = "json" ∧ ∀ text, v.label ≠ .unnamed text := by
    simp only [List.forall_mem_cons]
    exact ⟨⟨rfl, nofun⟩, ⟨rfl, nofun⟩, ⟨rfl, nofun⟩, by simp⟩
  have hplain : PlainType "json" := by decide
  obtain ⟨hbuilds, -, hcreate⟩ := builds_of_run hrun (fun v hv => (hcalls v hv).1 ▸ hplain)
    fun v hv u _ text text' htext => absurd htext ((hcalls v hv).2 text)
  obtain ⟨u, hu, hbuilt, hcapability, htype, hlabel, -⟩ := hbuilds [] _ _ rfl _ hresult
  obtain ⟨new, hnew⟩ := hcreate ((Factory.new ()).onBench namedParser.after)
    Factory.rememberingSetup rfl (Factory.onlyAsks_of_untapped rfl rfl _) (fun _ => true)
    Factory.twoEdges
  exact ⟨_, u, new, hresult, hu, hbuilt, hcapability, htype, hlabel, rfl, hnew⟩

/-- A call finds whatever was handed out under its key just before. -/
theorem result_of_key_eq {v : Fetch σ} {made : Shared Instance} (h : v.result = .ok made)
    {moduleType : String} {options : Option Json} (hkey : instanceKey moduleType options = v.key) :
    (⟨v.capability, moduleType, options, v.after⟩ : Fetch σ).result = .ok made := by
  have hfiled : (v.after.registry v.capability).made.get? v.key = some made := by
    rw [Fetch.registry_after]
    rw [Fetch.result_eq] at h
    exact Registry.made_of_get_eq_ok h
  rw [← hkey] at hfiled
  rw [Fetch.result_eq]
  exact congrArg Prod.fst (Registry.get_of_made hfiled)

/-- A creator of the instances of a type. -/
def creatorOf (moduleType : String) : Tap Unit Json (Except HookError (Option Instance)) :=
  .plain moduleType fun options world => (.ok (some ⟨moduleType, options⟩), world)

/-- A bench on which each of two types has a parser of its own. -/
def pipedBench : Bench Unit :=
  { world := ()
    parsers := { Registry.parsers with
      creators := (Registry.parsers.creators.tap "a" (creatorOf "a")).tap "a|b" (creatorOf "a|b") } }

def pipedFirst : Fetch Unit := ⟨.parser, "a", some (.obj [("ident", .str "b")]), pipedBench⟩

def pipedSecond : Fetch Unit := ⟨.parser, "a|b", none, pipedFirst.after⟩

/-- The parser of one type is handed out for another: no call for that type
has built it. -/
theorem parser_of_another_type :
    ∃ made, Run pipedSecond.after [pipedSecond, pipedFirst]
      ∧ pipedSecond.result = .ok made ∧ pipedFirst.Builds made
      ∧ ∀ u ∈ [pipedSecond, pipedFirst], u.capability = pipedSecond.capability →
        u.Builds made → u.moduleType ≠ pipedSecond.moduleType := by
  have hrun : Run pipedSecond.after [pipedSecond, pipedFirst] :=
    ((Run.start (b := pipedBench) (fun capability => by cases capability <;> rfl)).call
      (v := pipedFirst)).call (v := pipedSecond)
  have hfirst : pipedFirst.Builds ⟨0, ⟨"a", .obj [("ident", .str "b")]⟩⟩ :=
    ⟨by decide +kernel, by decide +kernel, ⟨creatorOf "a", List.mem_singleton.2 rfl, (), (), rfl⟩, rfl⟩
  refine ⟨_, hrun, ?_, hfirst, fun u hu hcapability hbuilds => ?_⟩
  · exact result_of_key_eq hfirst.given (instanceKey_append_ident "a" "b" [])
  · rw [hrun.recorded.unique _ u hu pipedFirst (by simp) hcapability hbuilds hfirst]
    decide

end Bench

end ImportChain
