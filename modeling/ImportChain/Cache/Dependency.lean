/-
ImportChain.Cache.Dependency — what was made for a dependency.

Entries are filed by the address of a dependency and do not keep it alive.
An address may be used again, so an entry counts only while the dependency
it was made for is alive. Entries of dead dependencies are swept out when
the cache has doubled since the last sweep, and never below 64 entries.
-/
import ImportChain.Module
import Std.Data.TreeMap

namespace ImportChain

/-- What was made for one dependency. -/
structure CacheEntry (α : Type) where
  dependency : Dependency
  value : α
  deriving Repr, DecidableEq

/-- What was made for dependencies. -/
structure DependencyCache (α : Type) where
  /-- The entries by the addresses of their dependencies. -/
  entries : Std.TreeMap Nat (CacheEntry α) := ∅
  /-- How many entries make a sweep necessary. -/
  sweepAt : Nat := 64

namespace DependencyCache

variable {α : Type}

/-- How few entries are never swept. -/
def sweepFloor : Nat := 64

def empty : DependencyCache α := {}

/-- What was made for a dependency, by the liveness of serial numbers. There is
no need to compare the two dependencies as well: an entry is filed by the
address of its own, and two that are alive at once are at different addresses
(`DependencyCache.Refines.eq_of_alive`). -/
def get? (c : DependencyCache α) (alive : Nat → Bool) (d : Dependency) : Option α :=
  match c.entries[d.address]? with
  | some e => if alive e.dependency.serial then some e.value else none
  | none => none

/-- The entries whose dependency is alive. -/
def living (c : DependencyCache α) (alive : Nat → Bool) : Std.TreeMap Nat (CacheEntry α) :=
  c.entries.filter fun _ e => alive e.dependency.serial

/-- The cache without the entries of dead dependencies. -/
def sweep (c : DependencyCache α) (alive : Nat → Bool) : DependencyCache α :=
  let kept := c.living alive
  { entries := kept, sweepAt := max (kept.size * 2) sweepFloor }

/-- The cache with what was made for a dependency, in place of any entry at
its address. -/
def insert (c : DependencyCache α) (alive : Nat → Bool) (d : Dependency) (value : α) :
    DependencyCache α :=
  let c := if c.sweepAt ≤ c.entries.size then c.sweep alive else c
  { c with entries := c.entries.insert d.address ⟨d, value⟩ }

def liveEntries (c : DependencyCache α) (alive : Nat → Bool) : Nat := (c.living alive).size

end DependencyCache

end ImportChain
