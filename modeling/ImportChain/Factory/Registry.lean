/-
ImportChain.Factory.Registry — where parsers and generators come from.

A registry has creators by module type, of which the first that gives an
instance wins, observers of new instances, and the instances made so far.
An instance is made once for each key and then shared.
-/
import ImportChain.Cache.Instance
import ImportChain.Hook.Keyed
import ImportChain.Module
import ImportChain.Rule.Defaults

namespace ImportChain

/-- Makers, observers and instances of one capability. -/
structure Registry (σ : Type) where
  capability : Capability
  creators : KeyedHook σ Json (Except HookError (Option Instance))
  observers : KeyedHook σ (Shared Instance × Json) Unit
  made : InstanceCache (Shared Instance) := {}
  /-- The serial number of the next instance. -/
  next : Nat := 0

namespace Registry

variable {σ : Type}

/-- The parsers of a factory, none yet. -/
def parsers : Registry σ :=
  { capability := .parser, creators := ⟨"createParser", []⟩, observers := ⟨"parser", []⟩ }

/-- The generators of a factory, none yet. -/
def generators : Registry σ :=
  { capability := .generator, creators := ⟨"createGenerator", []⟩,
    observers := ⟨"generator", []⟩ }

/-- The creators with those of the built-in types. -/
def withBuiltins (r : Registry σ) : Registry σ :=
  { r with
    creators := builtinModuleTypes.foldl
      (fun creators moduleType => creators.tap moduleType
        (.plain "BuiltinCapabilities" fun options world =>
          (.ok (some ⟨moduleType, options⟩), world)))
      r.creators }

/-- An instance of a type made with options, and shown to the observers. -/
def create (moduleType : String) (options : Json) :
    Registry σ × σ → Except FactoryError (Shared Instance) × Registry σ × σ
  | (r, world) =>
    let o := (r.creators.hook moduleType).bail options world
    let r := { r with creators := r.creators.after moduleType o }
    match o.result with
    | .error e => (.error (.hook e), r, o.world)
    | .ok none => (.error (.unregistered r.capability moduleType), r, o.world)
    | .ok (some value) =>
      let shared : Shared Instance := ⟨r.next, value⟩
      let seen := (r.observers.hook moduleType).multicast (shared, options) o.world
      (.ok shared,
        { r with observers := r.observers.after moduleType seen, next := r.next + 1 }, seen.world)

/-- The instance of a type with options, made on first use. -/
def get (moduleType : String) (options : Option Json) :
    Registry σ × σ → Except FactoryError (Shared Instance) × Registry σ × σ
  | (r, world) =>
    let (result, made, r, world) := r.made.getOrCreate (instanceKey moduleType options)
      (create moduleType (options.getD .empty)) (r, world)
    (result, { r with made }, world)

end Registry

end ImportChain
