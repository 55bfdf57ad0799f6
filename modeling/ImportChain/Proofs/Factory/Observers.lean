/-
ImportChain.Proofs.Factory.Observers — observers see each new instance once.

A tap that is told of new parsers or generators may do anything to the world,
so the world does not say how often it was called. `Bench.watching` puts notes
beside the world, in which one observer also writes down what it is called
with, while all other taps leave them alone.

The bench with notes goes along with the one without (`Bench.Mirrors`). For
each layer there is one lemma of what a call does to both: the taps of a hook
(`Hook.runMulticast_watching`), a registry (`Registry.Mirrors.get`), a bench
(`Bench.Mirrors.call`). `Bench.notes_of_run` is about every sequence of calls,
and `Bench.instances_made_once` joins it to what a cache does. Taps work on the
world and cannot ask the bench for instances.
-/
import ImportChain.Proofs.Cache.Attempts
import ImportChain.Proofs.Factory.Instances
import ImportChain.Proofs.Hook.Keys

namespace ImportChain

variable {σ ν α β ρ : Type}

/-! ## Taps beside notes -/

namespace Tap

mutual

/-- A tap in a world with something beside it that it leaves alone. -/
def beside (ν : Type) : Tap σ α β → Tap (σ × ν) α β
  | mk name run adds =>
    mk name (fun arg world => ((run arg world.1).1, (run arg world.1).2, world.2))
      fun arg world => besideAll ν (adds arg world.1)

def besideAll (ν : Type) : List (Tap σ α β) → List (Tap (σ × ν) α β)
  | [] => []
  | t :: rest => beside ν t :: besideAll ν rest

end

theorem besideAll_eq_map (taps : List (Tap σ α β)) : besideAll ν taps = taps.map (beside ν) := by
  induction taps with
  | nil => rfl
  | cons t rest ih => rw [besideAll, ih, List.map_cons]

/-- A tap that also notes down what it is called with. -/
def noting (t : Tap σ α β) : Tap (σ × List α) α β :=
  mk t.name (fun arg world => ((t.run arg world.1).1, (t.run arg world.1).2, world.2 ++ [arg]))
    fun arg world => besideAll (List α) (t.adds arg world.1)

section

variable (t : Tap σ α β) (arg : α) (world : σ)

@[simp] theorem name_beside : (t.beside ν).name = t.name := by
  cases t
  rfl

@[simp] theorem run_beside (notes : ν) :
    (t.beside ν).run arg (world, notes) = ((t.run arg world).1, (t.run arg world).2, notes) := by
  cases t
  rfl

@[simp] theorem adds_beside (notes : ν) :
    (t.beside ν).adds arg (world, notes) = (t.adds arg world).map (beside ν) := by
  cases t
  exact besideAll_eq_map _

@[simp] theorem run_noting (notes : List α) :
    t.noting.run arg (world, notes) = ((t.run arg world).1, (t.run arg world).2, notes ++ [arg]) :=
  rfl

@[simp] theorem adds_noting (notes : List α) :
    t.noting.adds arg (world, notes) = (t.adds arg world).map (beside (List α)) :=
  besideAll_eq_map _

end

/-- Taps beside notes, which the one at a position takes. -/
def watching : Option Nat → List (Tap σ α β) → List (Tap (σ × List α) α β)
  | _, [] => []
  | none, t :: rest => t.beside (List α) :: watching none rest
  | some 0, t :: rest => t.noting :: watching none rest
  | some (i + 1), t :: rest => t.beside (List α) :: watching (some i) rest

theorem watching_none (taps : List (Tap σ α β)) :
    watching none taps = taps.map (beside (List α)) := by
  induction taps with
  | nil => rfl
  | cons t rest ih => rw [watching, ih, List.map_cons]

/-- Whether the tap that takes notes is one of so many taps, if there is one. -/
def Within (which : Option Nat) (taps : Nat) : Prop := ∀ i, which = some i → i < taps

theorem Within.none (taps : Nat) : Within none taps := nofun

theorem Within.of_succ {i taps : Nat} (h : Within (some (i + 1)) (taps + 1)) :
    Within (some i) taps := by
  rintro j ⟨⟩
  exact Nat.lt_of_succ_lt_succ (h (i + 1) rfl)

theorem Within.mono {which : Option Nat} {taps more : Nat} (h : Within which taps)
    (hle : taps ≤ more) : Within which more := fun i hi => Nat.lt_of_lt_of_le (h i hi) hle

/-- Taps that come after the one that takes notes take none. -/
theorem watching_append (added : List (Tap σ α β)) :
    ∀ {which : Option Nat} {taps : List (Tap σ α β)}, Within which taps.length →
      watching which (taps ++ added) = watching which taps ++ added.map (beside (List α))
  | none, taps, _ => by rw [watching_none, watching_none, List.map_append]
  | some i, [], h => absurd (h i rfl) (Nat.not_lt_zero i)
  | some 0, t :: rest, _ => by
      rw [List.cons_append, watching, watching, watching_append added (.none _), List.cons_append]
  | some (i + 1), t :: rest, h => by
      rw [List.cons_append, watching, watching, watching_append added h.of_succ, List.cons_append]

end Tap

/-! ## Hooks beside notes -/

namespace Hook

/-- A call beside notes. -/
def Outcome.beside (notes : ν) (o : Outcome σ α β ρ) : Outcome (σ × ν) α β ρ :=
  ⟨o.result, o.added.map (Tap.beside ν), (o.world, notes)⟩

theorem runBail_beside (hook : String) (notes : ν) (arg : α) :
    ∀ (taps : List (Tap σ α (Except HookError (Option ρ)))) (world : σ),
      runBail hook (taps.map (Tap.beside ν)) arg (world, notes)
        = (runBail hook taps arg world).beside notes
  | [], _ => rfl
  | t :: rest, world => by
      rw [List.map_cons, runBail, runBail, Tap.run_beside, Tap.adds_beside, Tap.name_beside]
      cases t.run arg world with
      | mk answer left =>
        cases answer with
        | error e => rfl
        | ok found =>
          cases found with
          | some result => rfl
          | none =>
            simp only [runBail_beside hook notes arg rest left, Outcome.beside, List.map_append]

/-- What is noted of news, if somebody takes notes. -/
def noted (which : Option Nat) (news : List α) : List α := if which.isSome then news else []

@[simp] theorem noted_none (news : List α) : noted none news = [] := rfl

@[simp] theorem noted_some (i : Nat) (news : List α) : noted (some i) news = news := rfl

@[simp] theorem noted_nil (which : Option Nat) : noted which ([] : List α) = [] := by
  cases which <;> rfl

/-- Whoever takes notes of a call takes one. -/
theorem runMulticast_watching (arg : α) :
    ∀ {which : Option Nat} {taps : List (Tap σ α Unit)} (world : σ) (notes : List α),
      Tap.Within which taps.length →
        runMulticast (Tap.watching which taps) arg (world, notes)
          = (runMulticast taps arg world).beside (notes ++ noted which [arg])
  | none, [], _, notes, _ => by simp [Tap.watching, runMulticast, Outcome.beside]
  | some i, [], _, _, h => absurd (h i rfl) (Nat.not_lt_zero i)
  | none, t :: rest, world, notes, _ => by
      simp [Tap.watching, runMulticast, runMulticast_watching arg _ _ (.none _), Outcome.beside]
  | some 0, t :: rest, world, notes, _ => by
      simp [Tap.watching, runMulticast, runMulticast_watching arg _ _ (.none _), Outcome.beside]
  | some (i + 1), t :: rest, world, notes, h => by
      simp [Tap.watching, runMulticast, runMulticast_watching arg _ _ h.of_succ, Outcome.beside]

def beside (ν : Type) (h : Hook σ α β) : Hook (σ × ν) α β := ⟨h.name, h.taps.map (Tap.beside ν)⟩

def watching (which : Option Nat) (h : Hook σ α β) : Hook (σ × List α) α β :=
  ⟨h.name, Tap.watching which h.taps⟩

theorem after_beside (h : Hook σ α β) (o : Outcome σ α β ρ) (notes : ν) :
    (h.beside ν).after (o.beside notes) = (h.after o).beside ν :=
  congrArg (Hook.mk h.name) (List.map_append ..).symm

theorem after_watching {h : Hook σ α β} {which : Option Nat}
    (hwithin : Tap.Within which h.taps.length) (o : Outcome σ α β ρ) (notes : List α) :
    (h.watching which).after (o.beside notes) = (h.after o).watching which :=
  congrArg (Hook.mk h.name) (Tap.watching_append o.added hwithin).symm

end Hook

namespace KeyedHook

def beside (ν : Type) (f : KeyedHook σ α β) : KeyedHook (σ × ν) α β :=
  ⟨f.name, f.hooks.map fun entry => (entry.1, entry.2.beside ν)⟩

def watching (which : String → Option Nat) (f : KeyedHook σ α β) : KeyedHook (σ × List α) α β :=
  ⟨f.name, f.hooks.map fun entry => (entry.1, entry.2.watching (which entry.1))⟩

theorem hook_beside (f : KeyedHook σ α β) (key : String) :
    (f.beside ν).hook key = (f.hook key).beside ν := by
  unfold hook beside
  rw [KeyMap.get?_map]
  cases KeyMap.get? f.hooks key <;> rfl

theorem hook_watching (which : String → Option Nat) (f : KeyedHook σ α β) (key : String) :
    (f.watching which).hook key = (f.hook key).watching (which key) := by
  obtain ⟨name, hooks⟩ := f
  unfold hook watching
  induction hooks with
  | nil => cases which key <;> rfl
  | cons entry rest ih =>
    obtain ⟨k, h⟩ := entry
    simp only [List.map_cons, KeyMap.get?_cons]
    by_cases hkey : key = k
    · rw [if_pos hkey, if_pos hkey, hkey]
      rfl
    · rw [if_neg hkey, if_neg hkey]
      exact ih

end KeyedHook

/-! ## Registries beside notes -/

/-- What an observer notes: new instances, each with its options. -/
abbrev Notes := List (Shared Instance × Json)

namespace Registry

def watching (which : String → Option Nat) (r : Registry σ) : Registry (σ × Notes) where
  capability := r.capability
  creators := r.creators.beside Notes
  observers := r.observers.watching which
  made := r.made
  next := r.next

/-- Whether a registry is another one beside notes, which at each type at most
one observer takes. -/
structure Mirrors (which : String → Option Nat) (r : Registry σ) (r' : Registry (σ × Notes)) :
    Prop where
  capability : r'.capability = r.capability
  creators : ∀ key, r'.creators.hook key = (r.creators.hook key).beside Notes
  observers : ∀ key, r'.observers.hook key = (r.observers.hook key).watching (which key)
  within : ∀ key, Tap.Within (which key) (r.observers.hook key).taps.length
  made : r'.made = r.made
  next : r'.next = r.next

/-- What an observer of a type may be told of a call: the instance that it
builds. -/
def news (r : Registry σ) (moduleType : String) (options : Option Json) (world : σ) : Notes :=
  match r.made.get? (instanceKey moduleType options), (get moduleType options (r, world)).1 with
  | none, .ok made => [(made, options.getD .empty)]
  | _, _ => []

namespace Mirrors

variable {which : String → Option Nat} {r : Registry σ} {r' : Registry (σ × Notes)}

theorem watching (h : ∀ key, Tap.Within (which key) (r.observers.hook key).taps.length) :
    r.Mirrors which (r.watching which) where
  capability := rfl
  creators := KeyedHook.hook_beside r.creators
  observers := KeyedHook.hook_watching which r.observers
  within := h
  made := rfl
  next := rfl

/-- Creators have been asked. -/
theorem asked (h : r.Mirrors which r') (moduleType : String)
    (o : Hook.Outcome σ Json (Except HookError (Option Instance)) ρ) (notes : Notes) :
    Mirrors which { r with creators := r.creators.after moduleType o }
      { r' with creators := r'.creators.after moduleType (o.beside notes) } :=
  { h with
    creators := fun key => by
      rw [KeyedHook.hook_after, KeyedHook.hook_after, h.creators, h.creators, Hook.after_beside]
      split <;> rfl }

/-- Observers have been told of an instance. -/
theorem told (h : r.Mirrors which r') (moduleType : String)
    (o : Hook.Outcome σ (Shared Instance × Json) Unit Unit) (notes : Notes) (next : Nat) :
    Mirrors which { r with observers := r.observers.after moduleType o, next }
      { r' with observers := r'.observers.after moduleType (o.beside notes), next } :=
  { h with
    observers := fun key => by
      rw [KeyedHook.hook_after, KeyedHook.hook_after, h.observers, h.observers,
        Hook.after_watching (h.within moduleType)]
      by_cases hkey : key = moduleType
      · rw [if_pos hkey, if_pos hkey, hkey]
      · rw [if_neg hkey, if_neg hkey]
    within := fun key => by
      rw [KeyedHook.hook_after]
      by_cases hkey : key = moduleType
      · rw [if_pos hkey, hkey]
        exact (h.within moduleType).mono (List.length_append ▸ Nat.le_add_right ..)
      · rw [if_neg hkey]
        exact h.within key
    next := rfl }

theorem filed (h : r.Mirrors which r') (made : InstanceCache (Shared Instance)) :
    Mirrors which { r with made } { r' with made } := { h with made := rfl }

/-- A new instance is noted once, a failure is not. -/
theorem create (h : r.Mirrors which r') (moduleType : String) (options : Json) (world : σ)
    (notes : Notes) :
    ∃ after, Registry.create moduleType options (r', (world, notes))
        = ((Registry.create moduleType options (r, world)).1, after,
          (Registry.create moduleType options (r, world)).2.2,
          notes ++ match (Registry.create moduleType options (r, world)).1 with
            | .ok made => Hook.noted (which moduleType) [(made, options)]
            | .error _ => [])
      ∧ (Registry.create moduleType options (r, world)).2.1.Mirrors which after := by
  have hbail : (r'.creators.hook moduleType).bail options (world, notes)
      = ((r.creators.hook moduleType).bail options world).beside notes := by
    rw [h.creators]
    exact Hook.runBail_beside _ notes options _ world
  have hasked := h.asked moduleType ((r.creators.hook moduleType).bail options world) notes
  -- the creators take no notes, so only the observers add to them
  unfold Registry.create
  simp only [hbail]
  generalize (r.creators.hook moduleType).bail options world = o at hasked ⊢
  obtain ⟨result, added, left⟩ := o
  cases result with
  | error e => exact ⟨_, by simp [Hook.Outcome.beside], hasked⟩
  | ok found =>
    cases found with
    | none => exact ⟨_, by simp [Hook.Outcome.beside, h.capability], hasked⟩
    | some value =>
      have htold : (r'.observers.hook moduleType).multicast (⟨r.next, value⟩, options) (left, notes)
          = ((r.observers.hook moduleType).multicast (⟨r.next, value⟩, options) left).beside
            (notes ++ Hook.noted (which moduleType) [(⟨r.next, value⟩, options)]) := by
        rw [h.observers]
        exact Hook.runMulticast_watching _ left notes (h.within moduleType)
      simp only [Hook.Outcome.beside, h.next] at htold ⊢
      rw [htold]
      exact ⟨_, rfl, hasked.told moduleType _ _ _⟩

/-- A call builds the same beside notes, and what it builds is noted. -/
theorem get (h : r.Mirrors which r') (moduleType : String) (options : Option Json) (world : σ)
    (notes : Notes) :
    ∃ after, Registry.get moduleType options (r', (world, notes))
        = ((Registry.get moduleType options (r, world)).1, after,
          (Registry.get moduleType options (r, world)).2.2,
          notes ++ Hook.noted (which moduleType) (r.news moduleType options world))
      ∧ (Registry.get moduleType options (r, world)).2.1.Mirrors which after := by
  unfold news
  cases hfiled : r.made.get? (instanceKey moduleType options) with
  | some made =>
    refine ⟨r', ?_, ?_⟩
    · rw [get_of_made hfiled, get_of_made (h.made ▸ hfiled), Hook.noted_nil, List.append_nil]
    · rw [get_of_made hfiled]
      exact h
  | none =>
    obtain ⟨after, hcreate, hmirrors⟩ := h.create moduleType (options.getD .empty) world notes
    rw [get_of_missing hfiled, get_of_missing (h.made ▸ hfiled), hcreate, h.made]
    cases hmade : Registry.create moduleType (options.getD .empty) (r, world) with
    | mk result rest =>
      rw [hmade] at hmirrors
      cases result with
      | ok made => exact ⟨_, rfl, hmirrors.filed _⟩
      | error e =>
        rw [Hook.noted_nil]
        exact ⟨_, rfl, hmirrors.filed _⟩

end Mirrors

end Registry

/-! ## Benches beside notes -/

namespace Bench

/-- The calls for parsers and generators, one after the other. -/
def fetches (b : Bench σ) : List (Capability × String × Option Json) → List (Fetch σ)
  | [] => []
  | (capability, moduleType, options) :: wanted =>
    let v : Fetch σ := ⟨capability, moduleType, options, b⟩
    v :: v.after.fetches wanted

/-- The bench after calls. -/
def afterAll (b : Bench σ) : List (Capability × String × Option Json) → Bench σ
  | [] => b
  | (capability, moduleType, options) :: wanted =>
    (⟨capability, moduleType, options, b⟩ : Fetch σ).after.afterAll wanted

/-- A bench with notes, none yet, which at each type one observer may take. -/
def watching (which : Capability → String → Option Nat) (b : Bench σ) : Bench (σ × Notes) where
  world := (b.world, [])
  parsers := b.parsers.watching (which .parser)
  generators := b.generators.watching (which .generator)
  calls := b.calls

/-- One observer of one type. -/
def only (capability : Capability) (moduleType : String) (i : Nat) :
    Capability → String → Option Nat :=
  fun capability' moduleType' =>
    if capability' = capability ∧ moduleType' = moduleType then some i else none

structure Mirrors (which : Capability → String → Option Nat) (b : Bench σ)
    (b' : Bench (σ × Notes)) (notes : Notes) : Prop where
  world : b'.world = (b.world, notes)
  registry : ∀ capability,
    (b.registry capability).Mirrors (which capability) (b'.registry capability)

namespace Fetch

/-- What an observer of its type may be told of a call. -/
def news (v : Fetch σ) : Notes := v.asks.news v.moduleType v.options v.bench.world

theorem news_eq (v : Fetch σ) :
    v.news = match v.asks.made.get? v.key, v.result with
      | none, .ok made => [(made, v.options.getD .empty)]
      | _, _ => [] := by
  rw [result_eq]
  rfl

/-- There is at most one note of a call. -/
theorem pairwise_noted (v : Fetch σ) (which : Option Nat)
    (R : Shared Instance × Json → Shared Instance × Json → Prop) :
    (Hook.noted which v.news).Pairwise R := by
  rw [news_eq]
  cases which with
  | none => exact .nil
  | some i =>
    rw [Hook.noted_some]
    split
    · exact List.pairwise_singleton R _
    · exact .nil

/-- What a call builds is news, and nothing else. -/
theorem mem_news_iff {v : Fetch σ} {made : Shared Instance} {options : Json} :
    (made, options) ∈ v.news ↔ v.Builds made ∧ v.options.getD .empty = options := by
  rw [news_eq]
  constructor
  · intro h
    rcases v.cases_after with ⟨found, -, hfiled, -⟩ | ⟨built, hbuilds, -⟩ | ⟨⟨e, he⟩, -⟩
    · rw [hfiled] at h
      cases h
    · rw [hbuilds.missing, hbuilds.given] at h
      obtain ⟨rfl, rfl⟩ := Prod.mk.inj (List.mem_singleton.1 h)
      exact ⟨hbuilds, rfl⟩
    · rw [he] at h
      revert h
      cases v.asks.made.get? v.key <;> exact nofun
  · rintro ⟨hbuilds, rfl⟩
    rw [hbuilds.missing, hbuilds.given]
    exact List.mem_singleton_self _

end Fetch

namespace Mirrors

variable {which : Capability → String → Option Nat} {b : Bench σ} {b' : Bench (σ × Notes)}
  {notes : Notes}

theorem watching
    (h : ∀ capability key, Tap.Within (which capability key)
      ((b.registry capability).observers.hook key).taps.length) :
    b.Mirrors which (b.watching which) [] where
  world := rfl
  registry
    | .parser => .watching (h .parser)
    | .generator => .watching (h .generator)

/-- One call. -/
theorem call (h : b.Mirrors which b' notes) (capability : Capability) (moduleType : String)
    (options : Option Json) :
    let v : Fetch σ := ⟨capability, moduleType, options, b⟩
    let v' : Fetch (σ × Notes) := ⟨capability, moduleType, options, b'⟩
    v'.result = v.result
      ∧ v.after.Mirrors which v'.after (notes ++ Hook.noted (which capability moduleType) v.news) := by
  intro v v'
  obtain ⟨after, hget, hmirrors⟩ := (h.registry capability).get moduleType options b.world notes
  have hget' : Registry.get v'.moduleType v'.options (v'.asks, v'.bench.world) = _ := h.world ▸ hget
  refine ⟨?_, ?_, fun other => ?_⟩
  · rw [Fetch.result_eq, hget', Fetch.result_eq]
    rfl
  · rw [Fetch.world_after, hget', Fetch.world_after]
    rfl
  · by_cases hother : other = capability
    · subst hother
      rw [v.registry_after, v'.registry_after, hget']
      exact hmirrors
    · rw [v.registry_after_of_ne hother, v'.registry_after_of_ne hother]
      exact h.registry other

/-- All calls. -/
theorem run : ∀ (wanted : List (Capability × String × Option Json)) {b : Bench σ}
    {b' : Bench (σ × Notes)} {notes : Notes}, b.Mirrors which b' notes →
      (b'.fetches wanted).map Fetch.result = (b.fetches wanted).map Fetch.result
        ∧ (b.afterAll wanted).Mirrors which (b'.afterAll wanted)
          (notes ++ (b.fetches wanted).flatMap fun v =>
            Hook.noted (which v.capability v.moduleType) v.news)
  | [], b, b', notes, h => ⟨rfl, by rwa [fetches, List.flatMap_nil, List.append_nil]⟩
  | (capability, moduleType, options) :: wanted, b, b', notes, h => by
      obtain ⟨hresult, hcall⟩ := h.call capability moduleType options
      obtain ⟨hresults, hrun⟩ := run wanted hcall
      refine ⟨?_, ?_⟩
      · simp only [fetches, List.map_cons, hresult, hresults]
      · rw [fetches, List.flatMap_cons, ← List.append_assoc]
        exact hrun

end Mirrors

/-! ## What is noted of a run -/

/-- What calls build has a number that was not given before. -/
theorem next_le_of_builds {made : Shared Instance} :
    ∀ {wanted : List (Capability × String × Option Json)} {b : Bench σ},
      ∀ v ∈ b.fetches wanted, v.Builds made → (b.registry v.capability).next ≤ made.serial
  | [], _, _, hv, _ => by cases hv
  | (capability, moduleType, options) :: wanted, b, v, hv, hbuilds => by
      rcases List.mem_cons.1 hv with rfl | hv
      · exact Nat.le_of_eq hbuilds.numbered.symm
      · exact Nat.le_trans (next_le_after ⟨_, _, _, b⟩ v.capability) (next_le_of_builds v hv hbuilds)

/-- Of two builds in a run the later one has the higher number. -/
theorem pairwise_fetches :
    ∀ (wanted : List (Capability × String × Option Json)) (b : Bench σ),
      (b.fetches wanted).Pairwise fun v u => v.capability = u.capability →
        ∀ made made', v.Builds made → u.Builds made' → made.serial < made'.serial
  | [], _ => .nil
  | (capability, moduleType, options) :: wanted, b => by
      refine List.pairwise_cons.2 ⟨?_, pairwise_fetches wanted _⟩
      intro u hu hcapability made made' hbuilds hbuilds'
      have hle := next_le_of_builds u hu hbuilds'
      rw [← hcapability, hbuilds.next_after] at hle
      exact Nat.lt_of_succ_le hle

/-- Whether notes have each instance that calls build for a type, with its
options, and have it once. -/
structure NotedOnce (capability : Capability) (moduleType : String) (fetches : List (Fetch σ))
    (notes : Notes) : Prop where
  once : notes.Pairwise fun note later => note.1.serial < later.1.serial
  mem_iff : ∀ made options, (made, options) ∈ notes
    ↔ ∃ v ∈ fetches, v.capability = capability ∧ v.moduleType = moduleType
        ∧ v.options.getD .empty = options ∧ v.Builds made

section

variable {capability : Capability} {moduleType : String} {i : Nat}

theorem mem_noted_iff {v : Fetch σ} {note : Shared Instance × Json} :
    note ∈ Hook.noted (only capability moduleType i v.capability v.moduleType) v.news
      ↔ (v.capability = capability ∧ v.moduleType = moduleType) ∧ note ∈ v.news := by
  unfold only
  by_cases h : v.capability = capability ∧ v.moduleType = moduleType
  · rw [if_pos h, Hook.noted_some, and_iff_right h]
  · rw [if_neg h, Hook.noted_none, iff_false_right (fun hnote => h hnote.1)]
    exact List.not_mem_nil

/-- What one observer notes of calls. -/
theorem notedOnce_fetches (b : Bench σ) (wanted : List (Capability × String × Option Json)) :
    NotedOnce capability moduleType (b.fetches wanted)
      ((b.fetches wanted).flatMap fun v =>
        Hook.noted (only capability moduleType i v.capability v.moduleType) v.news) where
  once := by
    refine List.pairwise_flatMap.2 ⟨fun v _ => ?_, (pairwise_fetches wanted b).imp ?_⟩
    · exact v.pairwise_noted _ _
    · intro v u hlater note hnote later hlaterNote
      rw [mem_noted_iff, Fetch.mem_news_iff] at hnote hlaterNote
      exact hlater (hnote.1.1.trans hlaterNote.1.1.symm) _ _ hnote.2.1 hlaterNote.2.1
  mem_iff made options := by
    simp only [List.mem_flatMap, mem_noted_iff, Fetch.mem_news_iff]
    refine exists_congr fun v => and_congr_right fun _ => ?_
    rw [and_assoc, and_comm (b := v.options.getD .empty = options)]

/-- An observer that is there when a run begins sees each instance that is built
for its type, and sees it once. To watch it changes nothing. -/
theorem notes_of_run {b : Bench σ}
    (h : i < ((b.registry capability).observers.hook moduleType).taps.length)
    (wanted : List (Capability × String × Option Json)) :
    ∃ notes,
      ((b.watching (only capability moduleType i)).afterAll wanted).world
          = ((b.afterAll wanted).world, notes)
        ∧ ((b.watching (only capability moduleType i)).fetches wanted).map Fetch.result
          = (b.fetches wanted).map Fetch.result
        ∧ NotedOnce capability moduleType (b.fetches wanted) notes := by
  have hwithin : ∀ capability' key, Tap.Within (only capability moduleType i capability' key)
      ((b.registry capability').observers.hook key).taps.length := by
    intro capability' key j hj
    obtain ⟨⟨rfl, rfl⟩, ⟨⟩⟩ := Option.ite_none_right_eq_some.1 hj
    exact h
  obtain ⟨hresults, hrun⟩ := Mirrors.run wanted (.watching hwithin)
  exact ⟨_, hrun.world, hresults, notedOnce_fetches b wanted⟩

end

/-- Instances are made once. Under a key the first creator that succeeds is the
last one to run, a failure leaves no trace, and there is one entry for each
key that had a success. In every run of calls for parsers and generators, an
observer that is there at the beginning sees each instance that is built for
its type, and sees it once. -/
theorem instances_made_once :
    (∀ (α σ ε : Type) (world : σ) (calls : List (String × (σ → Except ε α × σ)))
      (earlier : List (InstanceCache.Attempt α σ ε)) (a : InstanceCache.Attempt α σ ε)
      (later : List (InstanceCache.Attempt α σ ε)),
      InstanceCache.attempts .empty world calls = earlier ++ a :: later →
        InstanceCache.MadeOnce earlier a)
    ∧ ∀ (σ : Type) (b : Bench σ) (capability : Capability) (moduleType : String) (i : Nat),
      i < ((b.registry capability).observers.hook moduleType).taps.length →
        ∀ wanted, ∃ notes,
          ((b.watching (only capability moduleType i)).afterAll wanted).world
              = ((b.afterAll wanted).world, notes)
            ∧ ((b.watching (only capability moduleType i)).fetches wanted).map Fetch.result
              = (b.fetches wanted).map Fetch.result
            ∧ NotedOnce capability moduleType (b.fetches wanted) notes :=
  ⟨fun _ _ _ _ _ _ _ _ h => InstanceCache.madeOnce_of_attempts h,
    fun _ _ _ _ _ h wanted => notes_of_run h wanted⟩

/-- A creator that fails. -/
def refusal : InstanceCache.Attempt Nat Unit String :=
  ⟨"a", fun world => (.error "not yet", world), .empty, ()⟩

def firstSuccess : InstanceCache.Attempt Nat Unit String :=
  ⟨"a", fun world => (.ok 1, world), refusal.after, refusal.left⟩

def otherSuccess : InstanceCache.Attempt Nat Unit String :=
  ⟨"b", fun world => (.ok 2, world), firstSuccess.after, firstSuccess.left⟩

/-- A creator that comes too late. -/
def lateCreator : InstanceCache.Attempt Nat Unit String :=
  ⟨"a", fun world => (.ok 3, world), otherSuccess.after, otherSuccess.left⟩

/-- The built-in parsers and generators, and two observers of the parsers of
one type. The second one registers another. -/
def observedBench : Bench Unit :=
  { builtinBench with
    parsers := { builtinBench.parsers with
      observers := (builtinBench.parsers.observers.tap "json" (.plain "first" fun _ _ => ((), ()))).tap
        "json" (.mk "second" (fun _ _ => ((), ())) fun _ _ => [.plain "third" fun _ _ => ((), ())]) } }

def wantedTwice : List (Capability × String × Option Json) :=
  [(.parser, "json", none), (.parser, "unknown", none), (.parser, "json", some .null),
    (.generator, "json", none), (.parser, "json", some (.obj [("ident", .str "strict")]))]

/-- A late creator gives what is there, and of five calls an observer sees the
two that build parsers of its type. -/
theorem instances_made_once_in_calls :
    (lateCreator.result = .ok 1 ∧ lateCreator.runs = false
      ∧ InstanceCache.MadeOnce [refusal, firstSuccess, otherSuccess] lateCreator)
    ∧ ∃ notes : Notes, notes.map (fun note => (note.1.serial, note.2))
          = [(0, .empty), (1, .obj [("ident", .str "strict")])]
        ∧ NotedOnce .parser "json" (observedBench.fetches wantedTwice) notes := by
  obtain ⟨hcache, hbench⟩ := instances_made_once
  refine ⟨⟨by decide +kernel, by decide +kernel, ?_⟩, ?_⟩
  · exact hcache Nat Unit String ()
      [("a", refusal.create), ("a", firstSuccess.create), ("b", otherSuccess.create),
        ("a", lateCreator.create)] _ _ [] rfl
  · have htapped : 1 < ((observedBench.registry .parser).observers.hook "json").taps.length := by
      decide +kernel
    obtain ⟨notes, hworld, -, hnotes⟩ := hbench Unit observedBench .parser "json" 1 htapped wantedTwice
    have hseen : ((observedBench.watching (only .parser "json" 1)).afterAll wantedTwice).world.2.map
        (fun note => (note.1.serial, note.2))
          = [(0, .empty), (1, .obj [("ident", .str "strict")])] := by decide +kernel
    rw [hworld] at hseen
    exact ⟨notes, hseen, hnotes⟩

end Bench

end ImportChain
