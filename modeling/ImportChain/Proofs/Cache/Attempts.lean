/-
ImportChain.Proofs.Cache.Attempts — each instance is made once.

An attempt to get the instance under a key brings its own creator along. It
is made on the cache and in the world that the attempts before it left
(`attempts`), and its creator may give something else each time, an instance
or an error.

`Attempt.outcomes` says once what an attempt can do: find an instance, make
one or fail. From it follows what a cache holds after attempts (`Holds`):
under a key, what the first creator to succeed gave, and no trace of a
failure. `madeOnce_of_attempts` says so of every attempt of every sequence.
-/
import ImportChain.Cache.Instance
import ImportChain.Proofs.KeyMap
import ImportChain.Proofs.Outcome
import Mathlib.Data.List.Dedup

namespace ImportChain.InstanceCache

variable {α σ ε : Type}

/-! ## One attempt -/

/-- An attempt to get the instance under a key, on a cache and in a world. -/
structure Attempt (α σ ε : Type) where
  key : String
  create : σ → Except ε α × σ
  cache : InstanceCache α
  world : σ

/-- A creator that also raises a flag beside the world. -/
def flagged (create : σ → Except ε α × σ) (world : σ × Bool) : Except ε α × (σ × Bool) :=
  ((create world.1).1, (create world.1).2, true)

namespace Attempt

variable (a : Attempt α σ ε)

def result : Except ε α := (a.cache.getOrCreate a.key a.create a.world).1

/-- The cache after an attempt. -/
def after : InstanceCache α := (a.cache.getOrCreate a.key a.create a.world).2.1

/-- The world after an attempt. -/
def left : σ := (a.cache.getOrCreate a.key a.create a.world).2.2

/-- Whether the creator is run: if it raises a flag, this is up after the
attempt. -/
def runs : Bool := (a.cache.getOrCreate a.key (flagged a.create) (a.world, false)).2.2.2

/-- What the creator gives in the world of the attempt, whether it is run or
not. -/
def offers : Except ε α := (a.create a.world).1

/-- All that an attempt can do: find what is there, file what its creator gives
where nothing is, or fail as its creator does. -/
theorem outcomes :
    (∃ x, a.cache.get? a.key = some x ∧ a.result = .ok x ∧ a.after = a.cache)
      ∨ (∃ x, a.cache.get? a.key = none ∧ a.offers = .ok x ∧ a.result = .ok x
        ∧ a.after = ⟨a.cache.entries.insert a.key x⟩)
      ∨ ∃ e, a.cache.get? a.key = none ∧ a.offers = .error e ∧ a.result = .error e
        ∧ a.after = a.cache := by
  unfold result after offers getOrCreate
  cases a.cache.get? a.key with
  | some x => exact .inl ⟨x, rfl, rfl, rfl⟩
  | none =>
    cases a.create a.world with
    | mk result left =>
      cases result with
      | ok x => exact .inr (.inl ⟨x, rfl, rfl, rfl, rfl⟩)
      | error e => exact .inr (.inr ⟨e, rfl, rfl, rfl, rfl⟩)

theorem runs_iff : a.runs = true ↔ a.cache.get? a.key = none := by
  unfold runs getOrCreate flagged
  cases a.cache.get? a.key with
  | some x => simp
  | none => cases (a.create a.world).1 <;> simp

/-- What an attempt has to offer for a key. -/
def offer? (key : String) : Option α := if a.key = key then a.offers.toOption else none

variable {a} {key : String} {x : α}

theorem offer?_eq_some_iff : a.offer? key = some x ↔ a.key = key ∧ a.offers = .ok x := by
  unfold offer?
  by_cases hkey : a.key = key
  · cases a.offers <;> simp [hkey, Except.toOption]
  · simp [hkey]

theorem offer?_eq_none_iff : a.offer? key = none ↔ ¬ (a.key = key ∧ a.offers.isOk = true) := by
  unfold offer?
  by_cases hkey : a.key = key
  · cases a.offers <;> simp [hkey, Except.toOption, Except.isOk, Except.toBool]
  · simp [hkey]

/-- An attempt adds what it has to offer where nothing is. -/
theorem get?_after (a : Attempt α σ ε) (key : String) :
    a.after.get? key = (a.cache.get? key).or (a.offer? key) := by
  rcases a.outcomes with ⟨x, hfound, -, hafter⟩ | ⟨x, hnone, hoffers, -, hafter⟩
    | ⟨e, -, hoffers, -, hafter⟩
  · rw [hafter]
    by_cases hkey : a.key = key
    · rw [← hkey, hfound, Option.some_or]
    · rw [offer?, if_neg hkey, Option.or_none]
  · rw [hafter]
    by_cases hkey : a.key = key
    · rw [← hkey, hnone, offer?, if_pos rfl, hoffers]
      exact KeyMap.get?_insert_self _ _ _
    · rw [offer?, if_neg hkey, Option.or_none]
      exact KeyMap.get?_insert_of_ne _ _ (Ne.symm hkey)
  · have hnone : a.offer? key = none := by
      rw [offer?_eq_none_iff, hoffers]
      exact fun h => nomatch h.2
    rw [hafter, hnone, Option.or_none]

/-- After an attempt there is something under the keys of before, and under its
own if it succeeded. -/
theorem isSome_get?_after (a : Attempt α σ ε) (key : String) :
    (a.after.get? key).isSome = true
      ↔ (a.cache.get? key).isSome = true ∨ (a.key = key ∧ a.result.isOk = true) := by
  rcases a.outcomes with ⟨x, hfound, hresult, hafter⟩ | ⟨x, -, -, hresult, hafter⟩
    | ⟨e, -, -, hresult, hafter⟩
  · rw [hafter, hresult]
    refine ⟨.inl, fun h => h.elim id ?_⟩
    rintro ⟨rfl, -⟩
    rw [hfound]
    rfl
  · rw [hafter, hresult]
    by_cases hkey : a.key = key
    · simp [get?, KeyMap.get?_insert, hkey, Except.isOk, Except.toBool]
    · simp [get?, KeyMap.get?_insert, hkey, Ne.symm hkey]
  · rw [hafter, hresult]
    simp [Except.isOk, Except.toBool]

theorem nodup_keys_after (h : (KeyMap.keys a.cache.entries).Nodup) :
    (KeyMap.keys a.after.entries).Nodup := by
  rcases a.outcomes with ⟨_, -, -, hafter⟩ | ⟨x, hnone, -, -, hafter⟩ | ⟨_, -, -, -, hafter⟩
  · rwa [hafter]
  · rw [hafter]
    have hkey : a.key ∉ KeyMap.keys a.cache.entries := KeyMap.get?_eq_none_iff.1 hnone
    have hperm : (a.cache.entries.insert a.key x).Perm ((a.key, x) :: a.cache.entries) :=
      KeyMap.perm_insert hkey
    have hkeys : (KeyMap.keys (a.cache.entries.insert a.key x)).Perm
        (a.key :: KeyMap.keys a.cache.entries) := hperm.map Prod.fst
    exact hkeys.nodup_iff.2 (List.nodup_cons.2 ⟨hkey, h⟩)
  · rwa [hafter]

end Attempt

/-! ## Sequences of attempts -/

/-- Attempts one after the other, each on the cache and in the world that the
one before it left. -/
def attempts (c : InstanceCache α) (world : σ) :
    List (String × (σ → Except ε α × σ)) → List (Attempt α σ ε)
  | [] => []
  | (key, create) :: calls =>
    let a : Attempt α σ ε := ⟨key, create, c, world⟩
    a :: attempts a.after a.left calls

/-- The keys of the attempts that succeeded. -/
def succeededKeys (as : List (Attempt α σ ε)) : List String :=
  (as.filter (·.result.isOk)).map (·.key)

theorem mem_succeededKeys_iff {as : List (Attempt α σ ε)} {key : String} :
    key ∈ succeededKeys as ↔ ∃ u ∈ as, u.key = key ∧ u.result.isOk = true := by
  simp [succeededKeys, and_comm, and_left_comm]

/-- What a cache holds after attempts: under each key what the first creator to
succeed offered, and something under a key only if an attempt succeeded. -/
structure Holds (c : InstanceCache α) (earlier : List (Attempt α σ ε)) : Prop where
  get?_eq : ∀ key, c.get? key = earlier.findSome? (·.offer? key)
  isSome_iff : ∀ key, (c.get? key).isSome = true ↔ key ∈ succeededKeys earlier
  nodup : (KeyMap.keys c.entries).Nodup

section Holds

variable {c : InstanceCache α} {earlier later : List (Attempt α σ ε)} {a : Attempt α σ ε}

theorem holds_empty : Holds (σ := σ) (ε := ε) (empty : InstanceCache α) [] where
  get?_eq _ := rfl
  isSome_iff _ := ⟨fun h => (nomatch h), fun h => (nomatch h)⟩
  nodup := .nil

/-- One attempt more. -/
theorem Holds.attempt (h : a.cache.Holds earlier) : a.after.Holds (earlier ++ [a]) where
  get?_eq key := by
    rw [a.get?_after, h.get?_eq, List.findSome?_append, List.findSome?_singleton]
  isSome_iff key := by
    rw [a.isSome_get?_after, h.isSome_iff, mem_succeededKeys_iff, mem_succeededKeys_iff]
    simp [or_and_right, exists_or]
  nodup := Attempt.nodup_keys_after h.nodup

theorem holds_of_attempts {calls : List (String × (σ → Except ε α × σ))} :
    ∀ {c : InstanceCache α} {world : σ} {before earlier : List (Attempt α σ ε)},
      c.Holds before → attempts c world calls = earlier ++ a :: later →
        a.cache.Holds (before ++ earlier) := by
  induction calls with
  | nil =>
    intro c world before earlier _ hsplit
    cases earlier <;> cases hsplit
  | cons call calls ih =>
    intro c world before earlier h hsplit
    cases earlier with
    | nil =>
      obtain ⟨rfl, -⟩ := List.cons.inj hsplit
      rwa [List.append_nil]
    | cons first earlier =>
      obtain ⟨rfl, hrest⟩ := List.cons.inj hsplit
      rw [← List.singleton_append, ← List.append_assoc]
      exact ih (Holds.attempt h) hrest

/-- A cache holds one entry for each key under which an attempt succeeded. -/
theorem Holds.size_eq (h : c.Holds earlier) : c.size = (succeededKeys earlier).dedup.length := by
  have hperm : (KeyMap.keys c.entries).Perm (succeededKeys earlier).dedup := by
    rw [List.perm_ext_iff_of_nodup h.nodup (List.nodup_dedup _)]
    intro key
    rw [List.mem_dedup, ← h.isSome_iff, Option.isSome_iff_ne_none, get?, ne_eq,
      KeyMap.get?_eq_none_iff, not_not]
  rw [← hperm.length_eq, KeyMap.keys, List.length_map]
  rfl

/-! ## What an attempt comes to -/

/-- What an attempt comes to after others on a new cache. -/
structure MadeOnce (earlier : List (Attempt α σ ε)) (a : Attempt α σ ε) : Prop where
  /-- The creator is run if no attempt with the key has succeeded. -/
  runs_iff : a.runs = true ↔ ∀ u ∈ earlier, u.key = a.key → u.result.isOk = false
  /-- The instance of the first creator to succeed is given, the attempt's own
  among them. -/
  given_iff : ∀ x, a.result = .ok x
    ↔ ∃ u, Earliest (fun w => w.key = a.key ∧ w.offers.isOk = true) (earlier ++ [a]) u
        ∧ u.offers = .ok x
  /-- Without one, the attempt fails as its creator does. -/
  failed_iff : ∀ e, a.result = .error e
    ↔ a.offers = .error e ∧ ∀ u ∈ earlier, u.key = a.key → u.offers.isOk = false
  /-- A failure leaves the cache as it was. -/
  unchanged : a.result.isOk = false → a.after = a.cache
  /-- There are as many entries as keys under which an attempt has succeeded. -/
  size_eq : a.after.size = (succeededKeys (earlier ++ [a])).dedup.length

theorem Holds.get?_eq_none_iff (h : a.cache.Holds earlier) :
    a.cache.get? a.key = none ↔ ∀ u ∈ earlier, u.key = a.key → u.offers.isOk = false := by
  rw [h.get?_eq, List.findSome?_eq_none_iff]
  refine forall₂_congr fun u _ => ?_
  rw [Attempt.offer?_eq_none_iff, not_and, Bool.not_eq_true]

theorem Holds.madeOnce (h : a.cache.Holds earlier) : MadeOnce earlier a where
  runs_iff := by
    rw [a.runs_iff, ← Option.not_isSome_iff_eq_none, h.isSome_iff, mem_succeededKeys_iff]
    simp
  given_iff x := by
    have hor : a.result = .ok x ↔ (a.cache.get? a.key).or (a.offer? a.key) = some x := by
      rcases a.outcomes with ⟨y, hfound, hresult, -⟩ | ⟨y, hnone, hoffers, hresult, -⟩
        | ⟨e, hnone, hoffers, hresult, -⟩
      · simp [hfound, hresult]
      · simp [hnone, hresult, Attempt.offer?, hoffers, Except.toOption]
      · simp [hnone, hresult, Attempt.offer?, hoffers, Except.toOption]
    rw [hor, ← a.get?_after, h.attempt.get?_eq,
      findSome?_eq_some_iff_earliest fun _ => Attempt.offer?_eq_none_iff]
    refine exists_congr fun u => and_congr_right fun hearliest => ?_
    rw [Attempt.offer?_eq_some_iff, and_iff_right hearliest.mem.2.1]
  failed_iff e := by
    rw [← h.get?_eq_none_iff]
    rcases a.outcomes with ⟨y, hfound, hresult, -⟩ | ⟨y, hnone, hoffers, hresult, -⟩
      | ⟨e', hnone, hoffers, hresult, -⟩
    · simp [hfound, hresult]
    · simp [hresult, hoffers]
    · simp [hnone, hresult, hoffers]
  unchanged hfailed := by
    rcases a.outcomes with ⟨_, _, -, hafter⟩ | ⟨_, -, -, hresult, -⟩ | ⟨_, -, -, -, hafter⟩
    · exact hafter
    · rw [hresult] at hfailed
      cases hfailed
    · exact hafter
  size_eq := h.attempt.size_eq

/-- Instances are made once, whatever creators the attempts bring along, and a
failure leaves no trace. -/
theorem madeOnce_of_attempts {world : σ} {calls : List (String × (σ → Except ε α × σ))}
    (h : attempts empty world calls = earlier ++ a :: later) : MadeOnce earlier a :=
  (holds_of_attempts holds_empty h).madeOnce

end Holds

end ImportChain.InstanceCache
