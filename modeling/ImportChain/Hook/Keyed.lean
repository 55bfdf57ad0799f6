/-
ImportChain.Hook.Keyed — hooks by key, made when a key is first used.

All hooks of a family have one name in errors. `hook` is the hook of a
key; `put` and `touch` make the key used, `has` and `keys` do not.
-/
import ImportChain.Hook.Basic
import ImportChain.KeyMap

namespace ImportChain

/-- Hooks by key. -/
structure KeyedHook (σ α β : Type) where
  name : String
  hooks : KeyMap (Hook σ α β) := []

namespace KeyedHook

variable {σ α β ρ : Type}

def hook (f : KeyedHook σ α β) (key : String) : Hook σ α β :=
  (f.hooks.get? key).getD { name := f.name }

/-- The family with a hook for a key. -/
def put (f : KeyedHook σ α β) (key : String) (h : Hook σ α β) : KeyedHook σ α β :=
  { f with hooks := f.hooks.insert key h }

/-- The family after a key has been used. -/
def touch (f : KeyedHook σ α β) (key : String) : KeyedHook σ α β := f.put key (f.hook key)

def tap (f : KeyedHook σ α β) (key : String) (t : Tap σ α β) : KeyedHook σ α β :=
  f.put key ((f.hook key).tap t)

/-- The family after a call of the hook of a key. -/
def after (f : KeyedHook σ α β) (key : String) (o : Hook.Outcome σ α β ρ) : KeyedHook σ α β :=
  f.put key ((f.hook key).after o)

def has (f : KeyedHook σ α β) (key : String) : Bool := f.hooks.contains key

def keys (f : KeyedHook σ α β) : List String := f.hooks.keys

end KeyedHook

end ImportChain
