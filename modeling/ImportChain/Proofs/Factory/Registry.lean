/-
ImportChain.Proofs.Factory.Registry — parsers and generators that have been
made are there to stay.

`Registry.get_of_made` and `Registry.made_of_get_eq_ok` are the two halves
of a cache: what is made is handed out, and what is handed out is made.
`Bench.KeptIn` says of a later bench that nothing has been lost, which no
request brings about (`Bench.defaultResolver_keeps`). A chain that could
be equipped on a bench can be on any that keeps what was made for it
(`Bench.equipFailures_of_keptIn`).
-/
import ImportChain.Proofs.Factory.Bench

namespace ImportChain

/-! ## Instances by key -/

namespace InstanceCache

variable {α σ ε : Type} {c : InstanceCache α} {key : String} {create : σ → Except ε α × σ} {s : σ}

theorem getOrCreate_of_get? {value : α} (h : c.get? key = some value) :
    c.getOrCreate key create s = (.ok value, c, s) := by
  unfold getOrCreate
  rw [h]

/-- What is handed out is there from then on. -/
theorem get?_of_getOrCreate_eq_ok {value : α} (h : (c.getOrCreate key create s).1 = .ok value) :
    (c.getOrCreate key create s).2.1.get? key = some value := by
  cases hc : c.get? key with
  | some found =>
    rw [getOrCreate_of_get? hc] at h ⊢
    cases h
    exact hc
  | none =>
    unfold getOrCreate at h ⊢
    rw [hc] at h ⊢
    cases hs : create s with
    | mk result s' =>
      rw [hs] at h
      cases result with
      | error e => cases h
      | ok made =>
        cases h
        exact KeyMap.get?_insert_self _ _ _

/-- What is there stays. -/
theorem get?_getOrCreate {other : String} {value : α} (h : c.get? other = some value) :
    (c.getOrCreate key create s).2.1.get? other = some value := by
  cases hc : c.get? key with
  | some found => rwa [getOrCreate_of_get? hc]
  | none =>
    unfold getOrCreate
    rw [hc]
    cases create s with
    | mk result s' =>
      cases result with
      | error e => exact h
      | ok made =>
        have hne : other ≠ key := fun e => by
          rw [e, hc] at h
          cases h
        exact (KeyMap.get?_insert_of_ne _ _ hne).trans h

end InstanceCache

/-! ## Registries -/

namespace Registry

variable {σ : Type} {r : Registry σ} {moduleType : String} {options : Option Json} {world : σ}
  {made : Shared Instance}

theorem get_of_made (h : r.made.get? (instanceKey moduleType options) = some made) :
    get moduleType options (r, world) = (.ok made, r, world) := by
  unfold get
  simp only [InstanceCache.getOrCreate_of_get? h]

/-- Where nothing is filed, a call files what is created. -/
theorem get_of_missing
    (h : r.made.get? (instanceKey moduleType options) = none) :
    get moduleType options (r, world)
      = match create moduleType (options.getD .empty) (r, world) with
        | (.ok made, r', world') => (.ok made,
            { r' with made := ⟨r.made.entries.insert (instanceKey moduleType options) made⟩ }, world')
        | (.error e, r', world') => (.error e, { r' with made := r.made }, world') := by
  simp only [get, InstanceCache.getOrCreate, h]
  cases create moduleType (options.getD .empty) (r, world) with
  | mk result rest => cases result <;> rfl

theorem made_of_get_eq_ok (h : (get moduleType options (r, world)).1 = .ok made) :
    (get moduleType options (r, world)).2.1.made.get? (instanceKey moduleType options)
      = some made :=
  InstanceCache.get?_of_getOrCreate_eq_ok h

theorem made_get {key : String} (h : r.made.get? key = some made) :
    (get moduleType options (r, world)).2.1.made.get? key = some made :=
  InstanceCache.get?_getOrCreate h

end Registry

/-! ## Benches -/

namespace Bench

variable {σ : Type}

/-- Whether all that is made on a bench is also made on another. -/
structure KeptIn (b b' : Bench σ) : Prop where
  parsers : ∀ key p, b.parsers.made.get? key = some p → b'.parsers.made.get? key = some p
  generators : ∀ key g, b.generators.made.get? key = some g →
    b'.generators.made.get? key = some g

namespace KeptIn

theorem refl (b : Bench σ) : b.KeptIn b := ⟨fun _ _ h => h, fun _ _ h => h⟩

theorem trans {a b c : Bench σ} (h : a.KeptIn b) (h' : b.KeptIn c) : a.KeptIn c :=
  ⟨fun key p hp => h'.parsers key p (h.parsers key p hp),
    fun key g hg => h'.generators key g (h.generators key g hg)⟩

/-- Nothing is lost by a sequence of steps of which none loses anything. -/
theorem bind {α β : Type} {x : Action (Bench σ) α} {f : α → Action (Bench σ) β} {b : Bench σ}
    (hx : b.KeptIn (x b).2) (hf : ∀ a b', KeptIn b' (f a b').2) : b.KeptIn ((x >>= f) b).2 := by
  rw [Action.bind_apply]
  revert hx
  cases x b with
  | mk result b' =>
    intro hx
    cases result with
    | error e => exact hx
    | ok a => exact hx.trans (hf a b')

end KeptIn

variable (moduleType : String) (options : Option Json)

theorem parser_keeps (b : Bench σ) : b.KeptIn (parser moduleType options b).2 :=
  ⟨fun _ _ h => Registry.made_get h, fun _ _ h => h⟩

theorem generator_keeps (b : Bench σ) : b.KeptIn (generator moduleType options b).2 :=
  ⟨fun _ _ h => h, fun _ _ h => Registry.made_get h⟩

theorem equip_keeps (r : ImportRequest) (c : Chain) (b : Bench σ) :
    b.KeptIn (equip r c b).2 :=
  (parser_keeps _ _ b).bind fun _ b' => (generator_keeps _ _ b').bind fun _ b'' => .refl b''

theorem asked_keeps (s : Setup) (r : ImportRequest) (b : Bench σ) : b.KeptIn (b.asked s r) :=
  ⟨fun _ _ h => h, fun _ _ h => h⟩

/-- No request loses a parser or a generator. -/
theorem defaultResolver_keeps (s : Setup) (r : ImportRequest) (b : Bench σ) :
    b.KeptIn (defaultResolver s r b).2 := by
  cases hs : s.resolve r with
  | error e =>
    rw [defaultResolver_of_error hs]
    exact asked_keeps s r b
  | ok result =>
    cases result with
    | ignored standIn =>
      rw [defaultResolver_of_ignored hs]
      exact asked_keeps s r b
    | chain c =>
      rw [defaultResolver_of_chain hs]
      exact (asked_keeps s r b).trans (equip_keeps r c (b.asked s r))

/-- A chain that is equipped leaves its parser and its generator made. -/
theorem made_of_equip_eq_ok {r : ImportRequest} {c : Chain} {b : Bench σ} {d : ResolvedImport}
    (h : (equip r c b).1 = .ok d) :
    (∃ p, (equip r c b).2.parsers.made.get?
        (instanceKey c.moduleType (c.settings.get? "parser")) = some p)
    ∧ ∃ g, (equip r c b).2.generators.made.get?
        (instanceKey c.moduleType (c.settings.get? "generator")) = some g := by
  unfold equip at h ⊢
  obtain ⟨p, hp, h⟩ := Action.bind_fst_eq_ok_iff.1 h
  obtain ⟨g, hg, -⟩ := Action.bind_fst_eq_ok_iff.1 h
  rw [Action.bind_of_fst_eq_ok hp, Action.bind_of_fst_eq_ok hg]
  exact ⟨⟨p, Registry.made_of_get_eq_ok hp⟩, g, Registry.made_of_get_eq_ok hg⟩

/-- A chain that was equipped can be where its parser and its generator are
kept. -/
theorem equipFailures_of_keptIn {r : ImportRequest} {c : Chain} {b b' : Bench σ}
    {d : ResolvedImport} (h : (equip r c b).1 = .ok d) (hb : (equip r c b).2.KeptIn b') :
    equipFailures c.settings b' = [] := by
  obtain ⟨⟨p, hp⟩, g, hg⟩ := made_of_equip_eq_ok h
  have hparser : parser c.moduleType (c.settings.get? "parser") b' = (.ok p, b') := by
    unfold parser
    rw [Registry.get_of_made (hb.parsers _ _ hp)]
  have hgenerator : generator c.moduleType (c.settings.get? "generator") b' = (.ok g, b') := by
    unfold generator
    rw [Registry.get_of_made (hb.generators _ _ hg)]
  show (Outcome.failure? (parser c.moduleType _ b').1).toList
    ++ (Outcome.failure? (generator c.moduleType _ (parser c.moduleType _ b').2).1).toList = []
  rw [hparser, hgenerator]
  rfl

end Bench

end ImportChain
