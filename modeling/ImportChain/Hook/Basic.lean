/-
ImportChain.Hook.Basic — hooks that others tap to see or change a value.

A call runs the taps that are registered when it begins, in order. A tap
may register further taps on its own hook; these come after all older ones
and first run in the next call, whether or not this call fails.

`waterfall` hands a value from tap to tap and each may replace it. `bail`
stops at the first tap that gives a result. `multicast` runs every tap for
its effect. An error stops a waterfall or a bail, and names the hook and
the tap where it does not name others.
-/
import ImportChain.Error

namespace ImportChain

/-- A function registered on a hook under a name. It sees an argument and
the world, gives an answer and a changed world, and may register further
taps. -/
inductive Tap (σ α β : Type) where
  | mk (name : String) (run : α → σ → β × σ) (adds : α → σ → List (Tap σ α β))

namespace Tap

variable {σ α β : Type}

def name : Tap σ α β → String
  | mk name _ _ => name

def run : Tap σ α β → α → σ → β × σ
  | mk _ run _ => run

def adds : Tap σ α β → α → σ → List (Tap σ α β)
  | mk _ _ adds => adds

/-- A tap that registers no others. -/
def plain (name : String) (run : α → σ → β × σ) : Tap σ α β := mk name run fun _ _ => []

end Tap

/-- What a tap of a waterfall says of the value. -/
inductive Waterfall (τ : Type) where
  | unchanged
  | replace (value : τ)
  deriving Repr, DecidableEq, Inhabited

/-- The value after a tap's answer. -/
def Waterfall.over {τ : Type} (value : τ) : Waterfall τ → τ
  | unchanged => value
  | replace next => next

/-- A hook: its name in errors and its taps, the oldest first. -/
structure Hook (σ α β : Type) where
  name : String
  taps : List (Tap σ α β) := []

namespace Hook

variable {σ α β τ γ ρ : Type}

def tap (h : Hook σ α β) (t : Tap σ α β) : Hook σ α β := { h with taps := h.taps ++ [t] }

def isUsed (h : Hook σ α β) : Bool := !h.taps.isEmpty

def tapNames (h : Hook σ α β) : List String := h.taps.map Tap.name

/-- A result of a call, the taps registered during it, and the world after
it. -/
structure Outcome (σ α β ρ : Type) where
  result : ρ
  added : List (Tap σ α β)
  world : σ

/-- The hook after a call. -/
def after (h : Hook σ α β) (o : Outcome σ α β ρ) : Hook σ α β :=
  { h with taps := h.taps ++ o.added }

/-! ## Waterfalls -/

/-- The taps of a waterfall on a value, one after the other. This is also the
waterfall whose taps have to be waited for: each is waited for before the next
one is run, so that the two differ in nothing that a call gives. -/
def runWaterfall (hook : String) :
    List (Tap σ (τ × γ) (Except HookError (Waterfall τ))) → τ → γ → σ →
      Outcome σ (τ × γ) (Except HookError (Waterfall τ)) (Except HookError τ)
  | [], value, _, world => ⟨.ok value, [], world⟩
  | t :: rest, value, args, world =>
    let added := t.adds (value, args) world
    match t.run (value, args) world with
    | (.error e, world) => ⟨.error (e.located hook t.name), added, world⟩
    | (.ok answer, world) =>
      let o := runWaterfall hook rest (answer.over value) args world
      { o with added := added ++ o.added }

def waterfall (h : Hook σ (τ × γ) (Except HookError (Waterfall τ))) (seed : τ) (args : γ)
    (world : σ) : Outcome σ (τ × γ) (Except HookError (Waterfall τ)) (Except HookError τ) :=
  runWaterfall h.name h.taps seed args world

/-! ## Bail -/

/-- The taps of a bail on an argument, up to the first result. -/
def runBail (hook : String) :
    List (Tap σ α (Except HookError (Option ρ))) → α → σ →
      Outcome σ α (Except HookError (Option ρ)) (Except HookError (Option ρ))
  | [], _, world => ⟨.ok none, [], world⟩
  | t :: rest, arg, world =>
    let added := t.adds arg world
    match t.run arg world with
    | (.error e, world) => ⟨.error (e.located hook t.name), added, world⟩
    | (.ok (some result), world) => ⟨.ok (some result), added, world⟩
    | (.ok none, world) =>
      let o := runBail hook rest arg world
      { o with added := added ++ o.added }

/-- The first result that a tap gives, if any does. -/
def bail (h : Hook σ α (Except HookError (Option ρ))) (arg : α) (world : σ) :
    Outcome σ α (Except HookError (Option ρ)) (Except HookError (Option ρ)) :=
  runBail h.name h.taps arg world

/-! ## Multicast -/

/-- The taps of a multicast on an argument, all of them. -/
def runMulticast : List (Tap σ α Unit) → α → σ → Outcome σ α Unit Unit
  | [], _, world => ⟨(), [], world⟩
  | t :: rest, arg, world =>
    let added := t.adds arg world
    let (_, world) := t.run arg world
    let o := runMulticast rest arg world
    { o with added := added ++ o.added }

/-- Every tap for its effect. -/
def multicast (h : Hook σ α Unit) (arg : α) (world : σ) : Outcome σ α Unit Unit :=
  runMulticast h.taps arg world

end Hook

end ImportChain
