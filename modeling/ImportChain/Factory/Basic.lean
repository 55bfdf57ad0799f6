/-
ImportChain.Factory.Basic — what a factory consists of.

A factory has three layers, because the functions that its hooks hand
around work on what lies below them: a resolver function on the `Bench`
with parsers and generators, a factory function on the `Workshop`, which
adds the hooks around a single module, and a request on the `Factory`,
which adds the outermost hooks and the modules made so far.

An `Action` changes its state also when it fails.
-/
import ImportChain.Cache.Dependency
import ImportChain.Chain
import ImportChain.Factory.Registry

namespace ImportChain

/-- A step that may fail and changes a state in either case. -/
abbrev Action (τ α : Type) := ExceptT FactoryError (StateM τ) α

/-- A hook whose taps may replace a value. -/
abbrev WaterfallHook (σ τ γ : Type) := Hook σ (τ × γ) (Except HookError (Waterfall τ))

/-- A hook whose first result counts. -/
abbrev BailHook (σ α ρ : Type) := Hook σ α (Except HookError (Option ρ))

/-- What a resolver function gives. -/
inductive Resolved where
  /-- Data that a module is still to be made of. -/
  | data (resolved : ResolvedImport)
  /-- A module that is finished. -/
  | module (m : Module)
  deriving DecidableEq, Inhabited

/-- What a resolver function works on. -/
structure Bench (σ : Type) where
  world : σ
  parsers : Registry σ := .parsers
  generators : Registry σ := .generators
  /-- The questions put to the delegate so far. -/
  calls : List Call := []

/-- Turns a request into data; nothing means that it is left out. -/
abbrev ResolverFn (σ : Type) := ImportRequest → Action (Bench σ) (Option Resolved)

/-- What a factory function works on. -/
structure Workshop (σ : Type) where
  bench : Bench σ
  resolver : WaterfallHook σ (Option (ResolverFn σ)) Unit := ⟨"resolver", []⟩
  afterResolve : WaterfallHook σ (Option ResolvedImport) Unit := ⟨"afterResolve", []⟩
  createModule : BailHook σ ResolvedImport Module := ⟨"createModule", []⟩
  moduleHook : WaterfallHook σ Module ResolvedImport := ⟨"module", []⟩

/-- Turns a request into a module; nothing means that it is left out. -/
abbrev FactoryFn (σ : Type) := ImportRequest → Action (Workshop σ) (Option Module)

/-- What creates modules. -/
structure Factory (σ : Type) where
  workshop : Workshop σ
  beforeResolve : WaterfallHook σ (Option ImportRequest) Unit := ⟨"beforeResolve", []⟩
  factoryHook : WaterfallHook σ (Option (FactoryFn σ)) Unit := ⟨"factory", []⟩
  cache : DependencyCache (Shared Module) := {}
  /-- The serial number of the next module. -/
  next : Nat := 0

/-- What a factory does not change: what it resolves with, and which modules
it remembers. -/
structure FactorySetup extends Setup where
  accepts : Module → Bool

namespace Factory

variable {σ : Type}

/-- A factory without taps in a world. -/
def new (world : σ) : Factory σ := { workshop := { bench := { world } } }

/-- The factory with the built-in parsers and generators. -/
def withBuiltins (f : Factory σ) : Factory σ :=
  let bench := f.workshop.bench
  { f with workshop := { f.workshop with
      bench := { bench with
        parsers := bench.parsers.withBuiltins
        generators := bench.generators.withBuiltins } } }

def world (f : Factory σ) : σ := f.workshop.bench.world

end Factory

end ImportChain
