/-
ImportChain.Proofs.Cache.Identity — a cache of dependencies is a map from
dependencies.

Entries are filed by address and outlive their dependencies, and addresses
are taken again. `Refines` ties a cache to the map that it stands for: an
entry whose dependency is held is what the map has for it, and nothing the
map has is missing. `Refines.step`, `Refines.sweep` and `Refines.insert`
keep it through all that can happen.

`get?_eq_lastInserted` is the main statement, about every run of a cache:
what is found for a dependency is what was last inserted for that very one.
-/
import ImportChain.Cache.Dependency
import ImportChain.Proofs.Cache.Handles
import Mathlib.Data.List.Dedup
import Mathlib.Logic.Function.Basic

namespace ImportChain

open Handles

namespace DependencyCache

variable {α : Type} {c : DependencyCache α} {h h' : Handles} {m : Dependency → Option α}
  {d d' : Dependency} {v : α}

/-! ## Entries -/

theorem getElem?_living (alive : Nat → Bool) (address : Nat) :
    (c.living alive)[address]?
      = c.entries[address]?.filter fun e => alive e.dependency.serial :=
  Std.TreeMap.getElem?_filter'

theorem entries_sweep (alive : Nat → Bool) : (c.sweep alive).entries = c.living alive := rfl

/-- A cache in which something has been inserted, when nothing is swept
before that. -/
def file (c : DependencyCache α) (d : Dependency) (v : α) : DependencyCache α :=
  { c with entries := c.entries.insert d.address ⟨d, v⟩ }

theorem getElem?_file (address : Nat) :
    (c.file d v).entries[address]?
      = if d.address = address then some ⟨d, v⟩ else c.entries[address]? := by
  simp [file, Std.TreeMap.getElem?_insert]

theorem insert_eq_file (alive : Nat → Bool) :
    c.insert alive d v = (if c.sweepAt ≤ c.entries.size then c.sweep alive else c).file d v := rfl

/-! ## The map that a cache stands for -/

/-- A cache finds for the dependencies that are held what a map has for
them. -/
structure Refines (h : Handles) (c : DependencyCache α) (m : Dependency → Option α) : Prop where
  sound : h.Sound
  /-- An entry is filed by the address of its dependency. -/
  filed : ∀ {address : Nat} {e : CacheEntry α}, c.entries[address]? = some e →
    e.dependency.address = address
  /-- No entry is of a dependency that is still to come. -/
  known : ∀ {address : Nat} {e : CacheEntry α}, c.entries[address]? = some e →
    e.dependency.serial < h.next
  /-- An entry whose dependency is alive is of one that is held. -/
  held : ∀ {address : Nat} {e : CacheEntry α}, c.entries[address]? = some e →
    h.alive e.dependency.serial = true → e.dependency ∈ h.held
  /-- The map has nothing for a dependency that is still to come. -/
  past : ∀ {d : Dependency} {v : α}, m d = some v → d.serial < h.next
  /-- The entries of dependencies that are held are what the map has. -/
  entry_iff : ∀ {d : Dependency}, d ∈ h.held → ∀ v, m d = some v ↔ c.entries[d.address]? = some ⟨d, v⟩

namespace Refines

/-- An empty cache stands for the empty map. -/
theorem empty (hs : h.Sound) : Refines h (DependencyCache.empty : DependencyCache α) fun _ => none := by
  have hnone : ∀ address : Nat, (DependencyCache.empty : DependencyCache α).entries[address]? = none :=
    fun _ => Std.TreeMap.getElem?_emptyc
  refine ⟨hs, ?_, ?_, ?_, ?_, ?_⟩
  all_goals simp [hnone]

/-- At the address of a dependency that is held stands its own entry or that
of a dead one. -/
theorem eq_of_alive (hr : Refines h c m) (hd : d ∈ h.held) {e : CacheEntry α}
    (he : c.entries[d.address]? = some e) (ha : h.alive e.dependency.serial = true) :
    e.dependency = d :=
  hr.sound.eq_of_address _ (hr.held he ha) _ hd (hr.filed he)

/-- What is found for a dependency that is held is what the map has. -/
theorem get?_eq (hr : Refines h c m) (hd : d ∈ h.held) : c.get? h.alive d = m d := by
  unfold get?
  cases he : c.entries[d.address]? with
  | none =>
    cases hm : m d with
    | none => rfl
    | some v =>
      rw [(hr.entry_iff hd v).1 hm] at he
      cases he
  | some e =>
    by_cases ha : h.alive e.dependency.serial = true
    · have hde := hr.eq_of_alive hd he ha
      have hv : m d = some e.value := by
        rw [hr.entry_iff hd, he, ← hde]
      simp only [ha, if_true, hv]
    · simp only [ha, Bool.false_eq_true, if_false]
      cases hm : m d with
      | none => rfl
      | some v =>
        -- the map would have an entry of its own there, and that one is alive
        rw [(hr.entry_iff hd v).1 hm] at he
        cases he
        exact absurd (alive_of_mem hd) ha

/-- Handles come and go without the cache knowing. -/
theorem step (hr : Refines h c m) (hstep : h.Step h') : Refines h' c m where
  sound := hr.sound.step hstep
  filed := hr.filed
  known he := Nat.lt_of_lt_of_le (hr.known he) (next_le_of_step hstep)
  held {address e} he ha := by
    obtain ⟨d, hd, hserial⟩ := alive_iff.1 ha
    rcases mem_or_le_of_step hstep hd with hold | hnew
    · have hmem := hr.held he (alive_iff.2 ⟨d, hold, hserial⟩)
      rwa [hr.sound.eq_of_serial _ hold _ hmem hserial] at hd
    · have := hr.known he
      omega
  past hm := Nat.lt_of_lt_of_le (hr.past hm) (next_le_of_step hstep)
  entry_iff {d} hd v := by
    rcases mem_or_le_of_step hstep hd with hold | hnew
    · exact hr.entry_iff hold v
    · -- a new dependency: neither the map nor the cache knows it
      constructor
      · intro hm
        have := hr.past hm
        omega
      · intro he
        have hlt : d.serial < h.next := hr.known he
        omega

/-- A sweep loses no entry of a dependency that is held. -/
theorem sweep (hr : Refines h c m) : Refines h (c.sweep h.alive) m := by
  have hkept : ∀ {address : Nat} {e : CacheEntry α}, (c.sweep h.alive).entries[address]? = some e →
      c.entries[address]? = some e := by
    intro address e he
    rw [entries_sweep, getElem?_living, Option.filter_eq_some_iff] at he
    exact he.1
  refine ⟨hr.sound, fun he => hr.filed (hkept he), fun he => hr.known (hkept he),
    fun he => hr.held (hkept he), hr.past, fun {d} hd v => ?_⟩
  rw [hr.entry_iff hd, entries_sweep, getElem?_living, Option.filter_eq_some_iff]
  simp [alive_of_mem hd]

theorem file (hr : Refines h c m) (hd : d ∈ h.held) (v : α) :
    Refines h (c.file d v) (Function.update m d (some v)) where
  sound := hr.sound
  filed {address e} he := by
    rw [getElem?_file] at he
    split at he
    · next ha =>
      cases he
      exact ha
    · exact hr.filed he
  known {address e} he := by
    rw [getElem?_file] at he
    split at he
    · cases he
      exact hr.sound.numbered d hd
    · exact hr.known he
  held {address e} he ha := by
    rw [getElem?_file] at he
    split at he
    · cases he
      exact hd
    · exact hr.held he ha
  past {d' v'} hm := by
    by_cases hdd : d' = d
    · rw [hdd]
      exact hr.sound.numbered d hd
    · rw [Function.update_of_ne hdd] at hm
      exact hr.past hm
  entry_iff {d'} hd' v' := by
    rw [getElem?_file]
    by_cases hdd : d' = d
    · subst hdd
      simp
    · -- what is held elsewhere is at another address
      have ha : d.address ≠ d'.address := fun ha =>
        hdd (hr.sound.eq_of_address _ hd' _ hd ha.symm)
      rw [Function.update_of_ne hdd, if_neg ha]
      exact hr.entry_iff hd' v'

/-- An insert changes the map at one dependency, whether or not it sweeps. -/
theorem insert (hr : Refines h c m) (hd : d ∈ h.held) (v : α) :
    Refines h (c.insert h.alive d v) (Function.update m d (some v)) := by
  rw [insert_eq_file]
  split
  · exact hr.sweep.file hd v
  · exact hr.file hd v

/-- The dependencies of the entries that are alive. -/
theorem mem_living_iff (hr : Refines h c m) :
    d ∈ (c.living h.alive).toList.map (fun entry => entry.2.dependency)
      ↔ d ∈ h.held ∧ (m d).isSome = true := by
  rw [List.mem_map]
  constructor
  · rintro ⟨⟨address, e⟩, he, rfl⟩
    rw [Std.TreeMap.mem_toList_iff_getElem?_eq_some, getElem?_living,
      Option.filter_eq_some_iff] at he
    have hmem := hr.held he.1 he.2
    have hm : m e.dependency = some e.value := by
      rw [hr.entry_iff hmem, hr.filed he.1, he.1]
    exact ⟨hmem, by rw [hm]; rfl⟩
  · rintro ⟨hd, hm⟩
    obtain ⟨v, hv⟩ := Option.isSome_iff_exists.1 hm
    refine ⟨(d.address, ⟨d, v⟩), ?_, rfl⟩
    rw [Std.TreeMap.mem_toList_iff_getElem?_eq_some, getElem?_living, Option.filter_eq_some_iff]
    exact ⟨(hr.entry_iff hd v).1 hv, alive_of_mem hd⟩

theorem nodup_living (hr : Refines h c m) :
    ((c.living h.alive).toList.map fun entry => entry.2.dependency).Nodup := by
  rw [List.Nodup, List.pairwise_map]
  refine List.Pairwise.imp_of_mem ?_ Std.TreeMap.distinct_keys_toList
  rintro ⟨address, e⟩ ⟨address', e'⟩ he he' hne heq
  simp only [Std.TreeMap.mem_toList_iff_getElem?_eq_some, getElem?_living,
    Option.filter_eq_some_iff] at he he' heq
  exact hne (Nat.compare_eq_eq.2 ((hr.filed he.1).symm.trans (heq ▸ hr.filed he'.1)))

/-- The living entries are the dependencies that are held and for which the
map has something. -/
theorem liveEntries_eq (hr : Refines h c m) :
    c.liveEntries h.alive = (h.held.dedup.filter fun d => (m d).isSome).length := by
  have hperm : ((c.living h.alive).toList.map fun entry => entry.2.dependency).Perm
      (h.held.dedup.filter fun d => (m d).isSome) := by
    refine (List.perm_ext_iff_of_nodup hr.nodup_living ((List.nodup_dedup _).filter _)).2 ?_
    intro d
    rw [hr.mem_living_iff, List.mem_filter, List.mem_dedup]
  calc c.liveEntries h.alive
      _ = (c.living h.alive).toList.length := Std.TreeMap.length_toList.symm
      _ = ((c.living h.alive).toList.map fun entry => entry.2.dependency).length :=
        (List.length_map _).symm
      _ = _ := hperm.length_eq

end Refines

/-! ## Runs -/

/-- What may happen to a cache and to the handles to its dependencies, and
what has been inserted so far, the latest first. Looking something up
changes nothing and is no step. -/
inductive Run : Handles → DependencyCache α → List (Dependency × α) → Prop where
  | start : Run {} .empty []
  | hold {h h' : Handles} {c : DependencyCache α} {inserted : List (Dependency × α)}
    (hrun : Run h c inserted) (hstep : h.Step h') : Run h' c inserted
  | insert {h : Handles} {c : DependencyCache α} {inserted : List (Dependency × α)}
    {d : Dependency} (hrun : Run h c inserted) (hd : d ∈ h.held) (v : α) :
    Run h (c.insert h.alive d v) ((d, v) :: inserted)

/-- What was last inserted for a dependency. -/
def lastInserted (inserted : List (Dependency × α)) (d : Dependency) : Option α :=
  (inserted.find? (·.1 = d)).map (·.2)

theorem lastInserted_cons (inserted : List (Dependency × α)) :
    lastInserted ((d, v) :: inserted) = Function.update (lastInserted inserted) d (some v) := by
  funext d'
  unfold lastInserted
  by_cases hdd : d' = d
  · subst hdd
    simp
  · rw [Function.update_of_ne hdd, List.find?_cons_of_neg (by simpa using fun e => hdd e.symm)]

theorem isSome_lastInserted (inserted : List (Dependency × α)) (d : Dependency) :
    (lastInserted inserted d).isSome = decide (d ∈ inserted.map (·.1)) := by
  rw [Bool.eq_iff_iff]
  simp [lastInserted]

theorem mem_of_lastInserted {inserted : List (Dependency × α)}
    (hv : lastInserted inserted d = some v) : (d, v) ∈ inserted := by
  obtain ⟨⟨d', v'⟩, hfind, rfl⟩ := Option.map_eq_some_iff.1 hv
  have hd : d' = d := by simpa using List.find?_some hfind
  rw [← hd]
  exact List.mem_of_find?_eq_some hfind

theorem Run.refines {inserted : List (Dependency × α)} (hrun : Run h c inserted) :
    Refines h c (lastInserted inserted) := by
  induction hrun with
  | start => exact Refines.empty sound_empty
  | hold _ hstep ih => exact ih.step hstep
  | insert _ hd v ih =>
    rw [lastInserted_cons]
    exact ih.insert hd v

/-- In every state that a cache comes to, what is found for a dependency is
what was last inserted for that very one, never for another at its address
or with its request; the living entries are the dependencies alive for
which something was inserted; and neither a sweep nor an insert for
another one changes what is found. -/
theorem get?_eq_lastInserted {inserted : List (Dependency × α)} (hrun : Run h c inserted) :
    (∀ d ∈ h.held, c.get? h.alive d = lastInserted inserted d)
    ∧ (∀ d ∈ h.held, ∀ v, c.get? h.alive d = some v → (d, v) ∈ inserted)
    ∧ c.liveEntries h.alive
      = (h.held.dedup.filter fun d => d ∈ inserted.map (·.1)).length
    ∧ (∀ d ∈ h.held, (c.sweep h.alive).get? h.alive d = c.get? h.alive d)
    ∧ ∀ d ∈ h.held, ∀ d' ∈ h.held, d' ≠ d → ∀ v,
      (c.insert h.alive d' v).get? h.alive d = c.get? h.alive d := by
  have hr := hrun.refines
  refine ⟨fun d hd => hr.get?_eq hd, fun d hd v hv => ?_, ?_, fun d hd => ?_,
    fun d hd d' hd' hne v => ?_⟩
  · rw [hr.get?_eq hd] at hv
    exact mem_of_lastInserted hv
  · rw [hr.liveEntries_eq]
    simp only [isSome_lastInserted]
  · rw [hr.sweep.get?_eq hd, hr.get?_eq hd]
  · rw [(hr.insert hd' v).get?_eq hd, hr.get?_eq hd, Function.update_of_ne (Ne.symm hne)]

/-- A dependency that takes the address of a dead one, with the same request,
does not find what was inserted for that. -/
theorem get?_of_address_taken_again :
    ∃ (h : Handles) (c : DependencyCache String) (d : Dependency),
      Run h c [(⟨16, 1, "./b"⟩, "b"), (⟨8, 0, "./a"⟩, "a")]
      ∧ h.held = [d, ⟨16, 1, "./b"⟩] ∧ d = ⟨8, 2, "./a"⟩
      ∧ c.get? h.alive d = none
      ∧ c.get? h.alive ⟨16, 1, "./b"⟩ = some "b"
      ∧ c.liveEntries h.alive = 1 := by
  have hfirst : Run _ _ [(⟨8, 0, "./a"⟩, "a")] :=
    ((Run.start.hold (.allocate 8 "./a" (by decide))).insert (by decide) "a")
  have hsecond : Run _ _ [(⟨16, 1, "./b"⟩, "b"), (⟨8, 0, "./a"⟩, "a")] :=
    ((hfirst.hold (.allocate 16 "./b" (by decide))).insert (by decide) "b")
  have hrun := (hsecond.hold (.drop (d := ⟨8, 0, "./a"⟩) (by decide))).hold
    (.allocate 8 "./a" (by decide))
  obtain ⟨hget, -, hlive, -, -⟩ := get?_eq_lastInserted hrun
  exact ⟨_, _, _, hrun, rfl, rfl, hget _ (by decide), hget _ (by decide), hlive⟩

end DependencyCache

end ImportChain
