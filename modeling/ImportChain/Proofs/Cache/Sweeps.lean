/-
ImportChain.Proofs.Cache.Sweeps — what the entries of dead dependencies
cost.

A history is a list of inserts, and between two of them any dependencies
may die. `sweeps` records every sweep of a history: how many entries it
looked at, one by one (`lookThrough`), and how many it kept.

A sweep is paid for by the inserts since the one before: what that one
kept is at most half of what makes the next one necessary, so at least
half of what the next one looks at is new. `Bounded` says so with every
insert paying for two looks, and each step keeps it.

`sweeps_of_history` is the main statement.
-/
import ImportChain.Proofs.Cache.Identity

namespace ImportChain

namespace DependencyCache

variable {α : Type} {c : DependencyCache α}

/-! ## Histories -/

/-- An insert: what is alive when it happens, and what is inserted. -/
structure Insertion (α : Type) where
  alive : Nat → Bool
  dependency : Dependency
  value : α

/-- A sweep: how many entries it looked at and how many it kept. -/
structure Sweep where
  examined : Nat
  kept : Nat
  deriving Repr, DecidableEq

/-- The entries that are alive, and how many were looked at to tell. -/
def lookThrough (alive : Nat → Bool) :
    List (Nat × CacheEntry α) → List (Nat × CacheEntry α) × Nat
  | [] => ([], 0)
  | entry :: rest =>
    let (kept, examined) := lookThrough alive rest
    (if alive entry.2.dependency.serial then entry :: kept else kept, examined + 1)

/-- An insert with the record of its sweep, if it makes one. -/
def insertRecorded (c : DependencyCache α) (i : Insertion α) : DependencyCache α × Option Sweep :=
  if c.sweepAt ≤ c.entries.size then
    let (kept, examined) := lookThrough i.alive c.entries.toList
    ((c.sweep i.alive).file i.dependency i.value, some ⟨examined, kept.length⟩)
  else (c.file i.dependency i.value, none)

/-- A cache after some inserts, the latest first. -/
def after (history : List (Insertion α)) : DependencyCache α :=
  history.foldr (fun i c => c.insert i.alive i.dependency i.value) .empty

/-- The sweeps of a history, the latest first. -/
def sweeps : List (Insertion α) → List Sweep
  | [] => []
  | i :: earlier => ((after earlier).insertRecorded i).2.toList ++ sweeps earlier

/-- Every run of a cache is a history: handles come and go between the
inserts. -/
theorem Run.exists_history {h : Handles} {inserted : List (Dependency × α)}
    (hrun : Run h c inserted) :
    ∃ history : List (Insertion α), after history = c
      ∧ history.map (fun i => (i.dependency, i.value)) = inserted := by
  induction hrun with
  | start => exact ⟨[], rfl, rfl⟩
  | hold _ _ ih => exact ih
  | @insert h _ _ d _ _ v ih =>
    obtain ⟨history, rfl, rfl⟩ := ih
    exact ⟨⟨h.alive, d, v⟩ :: history, rfl, rfl⟩

/-- How many entries the last of some sweeps kept. -/
def lastKept (sweeps : List Sweep) : Nat := (sweeps.head?.map Sweep.kept).getD 0

/-- How many entries some sweeps looked at. -/
def examinedIn : List Sweep → Nat
  | [] => 0
  | sweep :: earlier => sweep.examined + examinedIn earlier

/-! ## One insert -/

theorem lookThrough_eq (alive : Nat → Bool) : ∀ entries : List (Nat × CacheEntry α),
    lookThrough alive entries
      = (entries.filter fun entry => alive entry.2.dependency.serial, entries.length)
  | [] => rfl
  | entry :: rest => by
      rw [lookThrough, lookThrough_eq alive rest]
      by_cases ha : alive entry.2.dependency.serial = true <;> simp [ha]

/-- A sweep looks at every entry and keeps those that are alive. -/
theorem lookThrough_entries (c : DependencyCache α) (alive : Nat → Bool) :
    lookThrough alive c.entries.toList = ((c.living alive).toList, c.entries.size) := by
  rw [lookThrough_eq, Std.TreeMap.length_toList, living, Std.TreeMap.toList_filter]

theorem insertRecorded_fst (c : DependencyCache α) (i : Insertion α) :
    (c.insertRecorded i).1 = c.insert i.alive i.dependency i.value := by
  rw [insert_eq_file, insertRecorded]
  split <;> rfl

/-- What an insert does to a cache that is full. -/
theorem insertRecorded_of_le (h : c.sweepAt ≤ c.entries.size) (i : Insertion α) :
    c.insertRecorded i
      = ((c.sweep i.alive).file i.dependency i.value,
        some ⟨c.entries.size, c.liveEntries i.alive⟩) := by
  rw [insertRecorded, if_pos h, lookThrough_entries]
  simp [liveEntries]

theorem insertRecorded_of_lt (h : c.entries.size < c.sweepAt) (i : Insertion α) :
    c.insertRecorded i = (c.file i.dependency i.value, none) := by
  rw [insertRecorded, if_neg (Nat.not_le.2 h)]

theorem size_file (c : DependencyCache α) (d : Dependency) (v : α) :
    c.entries.size ≤ (c.file d v).entries.size
      ∧ (c.file d v).entries.size ≤ c.entries.size + 1 :=
  ⟨Std.TreeMap.size_le_size_insert, Std.TreeMap.size_insert_le⟩

/-! ## What every insert keeps -/

/-- What a cache keeps to after some sweeps and a number of inserts. -/
structure Bounded (c : DependencyCache α) (sweeps : List Sweep) (inserts : Nat) : Prop where
  sweepAt_eq : c.sweepAt = max 64 (2 * lastKept sweeps)
  size_le : c.entries.size ≤ c.sweepAt
  lastKept_le : lastKept sweeps ≤ c.entries.size
  /-- Every insert pays for two looks; two are kept for each entry that has
  come since the last sweep. -/
  paid : examinedIn sweeps + 2 * c.entries.size ≤ 2 * inserts + 2 * lastKept sweeps

namespace Bounded

variable {past : List Sweep} {inserts : Nat}

theorem empty : Bounded (DependencyCache.empty : DependencyCache α) [] 0 where
  sweepAt_eq := rfl
  size_le := Nat.zero_le _
  lastKept_le := Nat.zero_le _
  paid := Nat.le_refl _

theorem file (hb : Bounded c past inserts) (h : c.entries.size < c.sweepAt) (d : Dependency)
    (v : α) : Bounded (c.file d v) past (inserts + 1) := by
  obtain ⟨hge, hle⟩ := size_file c d v
  have hpaid := hb.paid
  exact ⟨hb.sweepAt_eq, Nat.le_trans hle h, Nat.le_trans hb.lastKept_le hge, by omega⟩

theorem sweep_file (hb : Bounded c past inserts) (h : c.sweepAt ≤ c.entries.size)
    (alive : Nat → Bool) (d : Dependency) (v : α) :
    Bounded ((c.sweep alive).file d v) (⟨c.entries.size, c.liveEntries alive⟩ :: past)
      (inserts + 1) := by
  obtain ⟨hge, hle⟩ := size_file (c.sweep alive) d v
  have hsize : (c.sweep alive).entries.size = c.liveEntries alive := rfl
  have hat : ((c.sweep alive).file d v).sweepAt = max (c.liveEntries alive * 2) 64 := rfl
  have hlast : lastKept (⟨c.entries.size, c.liveEntries alive⟩ :: past) = c.liveEntries alive := rfl
  have hsum : examinedIn (⟨c.entries.size, c.liveEntries alive⟩ :: past)
      = c.entries.size + examinedIn past := rfl
  -- at least half of the entries have come since the sweep before
  have hhalf : 2 * lastKept past ≤ c.entries.size := by
    have := hb.sweepAt_eq
    omega
  have hpaid := hb.paid
  refine ⟨?_, ?_, ?_, ?_⟩
  · rw [hat, hlast]
    omega
  · rw [hat]
    omega
  · rw [hlast]
    omega
  · rw [hlast, hsum]
    omega

theorem insertRecorded (hb : Bounded c past inserts) (i : Insertion α) :
    Bounded (c.insertRecorded i).1 ((c.insertRecorded i).2.toList ++ past) (inserts + 1) := by
  by_cases h : c.sweepAt ≤ c.entries.size
  · rw [insertRecorded_of_le h]
    exact hb.sweep_file h i.alive i.dependency i.value
  · rw [insertRecorded_of_lt (Nat.lt_of_not_le h)]
    exact hb.file (Nat.lt_of_not_le h) i.dependency i.value

end Bounded

theorem bounded_after : ∀ history : List (Insertion α),
    Bounded (after history) (sweeps history) history.length
  | [] => Bounded.empty
  | i :: earlier => by
      have hstep := (bounded_after earlier).insertRecorded i
      rw [insertRecorded_fst] at hstep
      exact hstep

/-- In every history, the insert with a record is the insert itself; a sweep is
due at twice what the last one kept, and never before 64 entries; the entries,
dead ones included, never exceed that; the next insert sweeps exactly if they
have reached it, looking at all of them; and all sweeps together have looked at
no more than two entries for each insert. -/
theorem sweeps_of_history (history : List (Insertion α)) (i : Insertion α) :
    ((after history).insertRecorded i).1
      = (after history).insert i.alive i.dependency i.value
    ∧ (after history).sweepAt = max 64 (2 * lastKept (sweeps history))
    ∧ (after history).entries.size ≤ (after history).sweepAt
    ∧ sweeps (i :: history)
      = (if (after history).entries.size = (after history).sweepAt then
          [⟨(after history).entries.size, (after history).liveEntries i.alive⟩] else [])
        ++ sweeps history
    ∧ examinedIn (sweeps history) ≤ 2 * history.length := by
  have hb := bounded_after history
  refine ⟨insertRecorded_fst _ i, hb.sweepAt_eq, hb.size_le, ?_, ?_⟩
  · rw [sweeps]
    by_cases h : (after history).entries.size = (after history).sweepAt
    · rw [if_pos h, insertRecorded_of_le (Nat.le_of_eq h.symm)]
      rfl
    · rw [if_neg h, insertRecorded_of_lt (Nat.lt_of_le_of_ne hb.size_le h)]
      rfl
  · have hpaid := hb.paid
    have hkept := hb.lastKept_le
    omega

end DependencyCache

end ImportChain
