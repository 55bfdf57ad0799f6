/-
ImportChain.Cache.Instance — instances by key, each made once.

A failure to make an instance is not remembered. The key of a parser or
generator is made of its type and its options: options that name
themselves go by that name, others by the digest of their canonical text.
-/
import ImportChain.Digest.Hex

namespace ImportChain

/-- Instances by key. -/
structure InstanceCache (α : Type) where
  entries : KeyMap α := []

namespace InstanceCache

variable {α σ ε : Type}

def empty : InstanceCache α := {}

def get? (c : InstanceCache α) (key : String) : Option α := c.entries.get? key

def size (c : InstanceCache α) : Nat := c.entries.length

def isEmpty (c : InstanceCache α) : Bool := c.entries.isEmpty

/-- The instance under a key, made now if there is none. -/
def getOrCreate (c : InstanceCache α) (key : String) (create : σ → Except ε α × σ) (s : σ) :
    Except ε α × InstanceCache α × σ :=
  match c.get? key with
  | some value => (.ok value, c, s)
  | none =>
    match create s with
    | (.ok value, s) => (.ok value, ⟨c.entries.insert key value⟩, s)
    | (.error e, s) => (.error e, c, s)

end InstanceCache

/-- The key of an instance of a type with options. -/
def instanceKey (moduleType : String) (options : Option Json) : String :=
  match options with
  | none => moduleType
  | some .null => moduleType
  | some options =>
    match (options.field? "ident").bind Json.str? with
    | some ident => moduleType ++ "|" ++ ident
    | none => moduleType ++ "#" ++ Digest.ofJson options

end ImportChain
