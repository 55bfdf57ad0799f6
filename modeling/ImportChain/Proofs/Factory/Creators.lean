/-
ImportChain.Proofs.Factory.Creators — what the creators of a registry
decide.

`Registry.Answers` says by the taps alone how a registry answers when it is
asked for an instance: with the one that was made before, or as its creators
do, of which the first that does not decline decides (`Hook.Decide`); after a
success its observers have run too.

`Registry.answers_iff` ties the judgement to the registry. Of parser and
generator, the generator is asked for in the world that the parser leaves
(`Bench.failure?_generator_eq_some_iff`).
-/
import ImportChain.Proofs.Factory.Registry

namespace ImportChain

open Outcome

/-! ## Taps -/

namespace Hook

variable {σ α β ρ : Type}

/-- What taps decide that are asked one after the other, and the world that
they leave: the first that does not decline has the last word, and its error
names the hook and the tap where it does not name others. -/
inductive Decide (hook : String) (arg : α) :
    List (Tap σ α (Except HookError (Option ρ))) → σ → Except HookError (Option ρ) → σ → Prop
  | nobody (world : σ) : Decide hook arg [] world (.ok none) world
  | fails {t : Tap σ α (Except HookError (Option ρ))} {world left : σ} {e : HookError}
      (h : t.run arg world = (.error e, left))
      (rest : List (Tap σ α (Except HookError (Option ρ)))) :
      Decide hook arg (t :: rest) world
        (.error ⟨if e.hook = "" then hook else e.hook, if e.tap = "" then t.name else e.tap,
          e.message⟩) left
  | gives {t : Tap σ α (Except HookError (Option ρ))} {world left : σ} {result : ρ}
      (h : t.run arg world = (.ok (some result), left))
      (rest : List (Tap σ α (Except HookError (Option ρ)))) :
      Decide hook arg (t :: rest) world (.ok (some result)) left
  | declines {t : Tap σ α (Except HookError (Option ρ))} {world seen left : σ}
      {rest : List (Tap σ α (Except HookError (Option ρ)))}
      {answer : Except HookError (Option ρ)} (h : t.run arg world = (.ok none, seen))
      (others : Decide hook arg rest seen answer left) : Decide hook arg (t :: rest) world answer left

theorem decide_runBail (hook : String) (arg : α) :
    ∀ (taps : List (Tap σ α (Except HookError (Option ρ)))) (world : σ),
      Decide hook arg taps world (runBail hook taps arg world).result
        (runBail hook taps arg world).world
  | [], world => .nobody world
  | t :: rest, world => by
      unfold runBail
      cases h : t.run arg world with
      | mk answer seen =>
        cases answer with
        | error e => exact .fails h rest
        | ok result =>
          cases result with
          | some result => exact .gives h rest
          | none => exact .declines h (decide_runBail hook arg rest seen)

theorem Decide.runBail_eq {hook : String} {arg : α}
    {taps : List (Tap σ α (Except HookError (Option ρ)))} {world left : σ}
    {answer : Except HookError (Option ρ)} (h : Decide hook arg taps world answer left) :
    (runBail hook taps arg world).result = answer
      ∧ (runBail hook taps arg world).world = left := by
  induction h with
  | nobody world => exact ⟨rfl, rfl⟩
  | fails h rest => simp only [runBail, h, HookError.located, and_self]
  | gives h rest => simp only [runBail, h, and_self]
  | declines h others ih => simpa only [runBail, h] using ih

/-- The world that taps leave that are all run for their effect. -/
def worldAfter (arg : α) (taps : List (Tap σ α β)) (world : σ) : σ :=
  taps.foldl (fun world t => (t.run arg world).2) world

theorem world_runMulticast (arg : α) : ∀ (taps : List (Tap σ α Unit)) (world : σ),
    (runMulticast taps arg world).world = worldAfter arg taps world
  | [], _ => rfl
  | t :: rest, world => world_runMulticast arg rest (t.run arg world).2

theorem world_multicast (h : Hook σ α Unit) (arg : α) (world : σ) :
    (h.multicast arg world).world = worldAfter arg h.taps world :=
  world_runMulticast arg h.taps world

end Hook

/-! ## Registries -/

namespace Registry

variable {σ : Type}

/-- What the creators of a type decide when they are given options. -/
def CreatorsDecide (r : Registry σ) (moduleType : String) (options : Json) (world : σ) :
    Except HookError (Option Instance) → σ → Prop :=
  Hook.Decide (r.creators.hook moduleType).name options (r.creators.hook moduleType).taps world

/-- What making an instance comes to, and the world after it. -/
inductive Makes (r : Registry σ) (moduleType : String) (options : Json) (world : σ) :
    Except FactoryError (Shared Instance) → σ → Prop
  | refused {e : HookError} {left : σ}
      (h : r.CreatorsDecide moduleType options world (.error e) left) :
      Makes r moduleType options world (.error (.hook e)) left
  | unknown {left : σ} (h : r.CreatorsDecide moduleType options world (.ok none) left) :
      Makes r moduleType options world (.error (.unregistered r.capability moduleType)) left
  | created {value : Instance} {seen : σ}
      (h : r.CreatorsDecide moduleType options world (.ok (some value)) seen) :
      Makes r moduleType options world (.ok ⟨r.next, value⟩)
        (Hook.worldAfter (⟨r.next, value⟩, options) (r.observers.hook moduleType).taps seen)

/-- How a registry answers when it is asked for an instance, and the world
after that. -/
inductive Answers (r : Registry σ) (moduleType : String) (options : Option Json) (world : σ) :
    Except FactoryError (Shared Instance) → σ → Prop
  | kept {made : Shared Instance} (h : r.made.get? (instanceKey moduleType options) = some made) :
      Answers r moduleType options world (.ok made) world
  | new {answer : Except FactoryError (Shared Instance)} {left : σ}
      (missing : r.made.get? (instanceKey moduleType options) = none)
      (h : r.Makes moduleType (options.getD (.obj [])) world answer left) :
      Answers r moduleType options world answer left

variable {r : Registry σ} {moduleType : String} {world left : σ}
  {answer : Except FactoryError (Shared Instance)}

theorem makes_create (r : Registry σ) (moduleType : String) (options : Json) (world : σ) :
    r.Makes moduleType options world (create moduleType options (r, world)).1
      (create moduleType options (r, world)).2.2 := by
  have hdecide : r.CreatorsDecide moduleType options world
      ((r.creators.hook moduleType).bail options world).result
      ((r.creators.hook moduleType).bail options world).world := Hook.decide_runBail _ _ _ _
  unfold create
  cases hresult : ((r.creators.hook moduleType).bail options world).result with
  | error e =>
    rw [hresult] at hdecide
    simp only [hresult]
    exact .refused hdecide
  | ok found =>
    rw [hresult] at hdecide
    cases found with
    | none =>
      simp only [hresult]
      exact .unknown hdecide
    | some value =>
      simp only [hresult, Hook.world_multicast]
      exact .created hdecide

theorem Makes.create_eq {options : Json} (h : r.Makes moduleType options world answer left) :
    (create moduleType options (r, world)).1 = answer
      ∧ (create moduleType options (r, world)).2.2 = left := by
  unfold create Hook.bail
  cases h with
  | refused h | unknown h =>
    obtain ⟨hresult, hworld⟩ := h.runBail_eq
    simp only [hresult, hworld, and_self]
  | created h =>
    obtain ⟨hresult, hworld⟩ := h.runBail_eq
    simp only [hresult, hworld, Hook.world_multicast, and_self]

/-- The answer of a registry and the world after it. -/
theorem answers_iff {options : Option Json} :
    r.Answers moduleType options world answer left
      ↔ (get moduleType options (r, world)).1 = answer
        ∧ (get moduleType options (r, world)).2.2 = left := by
  cases hmade : r.made.get? (instanceKey moduleType options) with
  | some made =>
    rw [get_of_made hmade]
    constructor
    · rintro (h | ⟨missing, -⟩)
      · cases hmade.symm.trans h
        exact ⟨rfl, rfl⟩
      · cases hmade.symm.trans missing
    · rintro ⟨rfl, rfl⟩
      exact .kept hmade
  | none =>
    have hget : (get moduleType options (r, world)).1
          = (create moduleType (options.getD .empty) (r, world)).1
        ∧ (get moduleType options (r, world)).2.2
          = (create moduleType (options.getD .empty) (r, world)).2.2 := by
      rw [get_of_missing hmade]
      cases create moduleType (options.getD .empty) (r, world) with
      | mk result rest => cases result <;> exact ⟨rfl, rfl⟩
    rw [hget.1, hget.2]
    constructor
    · rintro (h | ⟨-, h⟩)
      · cases hmade.symm.trans h
      · exact h.create_eq
    · rintro ⟨rfl, rfl⟩
      exact .new hmade (makes_create r moduleType _ world)

end Registry

/-! ## Parser and generator -/

namespace Bench

variable {σ : Type} {b : Bench σ} {moduleType : String} {options : Option Json} {e : FactoryError}

theorem failure?_parser_eq_some_iff :
    failure? (parser moduleType options b).1 = some e
      ↔ ∃ left, b.parsers.Answers moduleType options b.world (.error e) left := by
  rw [failure?_eq_some_iff]
  show (Registry.get moduleType options (b.parsers, b.world)).1 = _ ↔ _
  simp only [Registry.answers_iff]
  exact ⟨fun h => ⟨_, h, rfl⟩, fun ⟨_, h, _⟩ => h⟩

/-- The generator is asked for in the world that the parser leaves. -/
theorem failure?_generator_eq_some_iff {parserOptions : Option Json} :
    failure? (generator moduleType options (parser moduleType parserOptions b).2).1 = some e
      ↔ ∃ answer seen left, b.parsers.Answers moduleType parserOptions b.world answer seen
          ∧ b.generators.Answers moduleType options seen (.error e) left := by
  rw [failure?_eq_some_iff]
  show (Registry.get moduleType options (b.generators,
    (Registry.get moduleType parserOptions (b.parsers, b.world)).2.2)).1 = _ ↔ _
  simp only [Registry.answers_iff]
  constructor
  · intro h
    exact ⟨_, _, _, ⟨rfl, rfl⟩, h, rfl⟩
  · rintro ⟨_, _, _, ⟨-, rfl⟩, h, -⟩
    exact h

end Bench

end ImportChain
