/-
ImportChain.Proofs.Factory.Bench — steps that change a state, and what the
default resolver gives.

An `Action` hands on its state also when it fails; `bind_apply` is the one
rule for two actions in a row, and everything about a longer sequence
comes from it. What the default resolver gives for a request depends only
on what the setup resolves the request to, and for a chain on the parser
and the generator as well: `defaultResolver_of_error`,
`defaultResolver_of_ignored` and `defaultResolver_of_chain` are the three
cases.
-/
import ImportChain.Factory.Create
import ImportChain.Proofs.Outcome

namespace ImportChain

open Outcome

/-! ## Actions -/

namespace Action

variable {τ α β : Type}

theorem pure_apply (a : α) (t : τ) : (pure a : Action τ α) t = (.ok a, t) := rfl

theorem bind_apply (x : Action τ α) (f : α → Action τ β) (t : τ) :
    (x >>= f) t = match x t with
      | (.ok a, t') => f a t'
      | (.error e, t') => (.error e, t') := by
  show (ExceptT.bindCont f (x t).1 : StateM τ (Except FactoryError β)) (x t).2 = _
  cases x t with
  | mk result t' => cases result <;> rfl

/-- Two actions in a row give a value if both do, the second one in the state
that the first one leaves. -/
theorem bind_fst_eq_ok_iff {x : Action τ α} {f : α → Action τ β} {t : τ} {b : β} :
    ((x >>= f) t).1 = .ok b ↔ ∃ a, (x t).1 = .ok a ∧ (f a (x t).2).1 = .ok b := by
  rw [bind_apply]
  cases hx : x t with
  | mk result t' => cases result <;> simp

theorem bind_of_fst_eq_ok {x : Action τ α} {t : τ} {a : α} (h : (x t).1 = .ok a)
    (f : α → Action τ β) : (x >>= f) t = f a (x t).2 := by
  rw [bind_apply]
  revert h
  cases x t with
  | mk result t' =>
    rintro ⟨⟩
    rfl

/-- Two actions in a row fail as the first of what may go wrong in either. -/
theorem failure?_bind_eq_head? {x : Action τ α} {f : α → Action τ β} {t : τ}
    {es es' : List FactoryError} (hx : failure? (x t).1 = es.head?)
    (hf : ∀ a, (x t).1 = .ok a → failure? (f a (x t).2).1 = es'.head?) :
    failure? ((x >>= f) t).1 = (es ++ es').head? := by
  rw [bind_apply, List.head?_append, ← hx]
  revert hf
  cases x t with
  | mk result t' =>
    intro hf
    cases result with
    | error e => rfl
    | ok a => exact hf a rfl

end Action

/-! ## Parser and generator -/

namespace Bench

variable {σ : Type}

/-- The failures of parser and generator. The generator is asked for on the
bench that the parser leaves. -/
def equipFailures (settings : Settings) (b : Bench σ) : List FactoryError :=
  let moduleType := (settings.str? "type").getD defaultModuleType
  let asked := parser moduleType (settings.get? "parser") b
  (failure? asked.1).toList
    ++ (failure? (generator moduleType (settings.get? "generator") asked.2).1).toList

theorem equip_eq_ok {r : ImportRequest} {c : Chain} {b : Bench σ} {d : ResolvedImport}
    (h : (equip r c b).1 = .ok d) :
    ∃ p g, d = ⟨c.descriptor r p g, r.info, r.dependencies⟩ := by
  unfold equip at h
  obtain ⟨p, -, h⟩ := Action.bind_fst_eq_ok_iff.1 h
  obtain ⟨g, -, h⟩ := Action.bind_fst_eq_ok_iff.1 h
  rw [Action.pure_apply] at h
  cases h
  exact ⟨p, g, rfl⟩

theorem failure?_equip (r : ImportRequest) (c : Chain) (b : Bench σ) :
    failure? (equip r c b).1 = (equipFailures c.settings b).head? := by
  unfold equip equipFailures
  refine Action.failure?_bind_eq_head? Option.head?_toList.symm fun p _ => ?_
  rw [← List.append_nil (failure? _).toList]
  exact Action.failure?_bind_eq_head? Option.head?_toList.symm fun g _ => rfl

end Bench

/-! ## The default resolver -/

section Resolver

variable {σ : Type} {s : Setup} {r : ImportRequest}

/-- The bench after the questions of a request. -/
def Bench.asked (s : Setup) (r : ImportRequest) (b : Bench σ) : Bench σ :=
  { b with calls := b.calls ++ s.resolveCalls r }

/-- Parser and generator do not depend on what has been asked. -/
theorem Bench.equipFailures_asked (settings : Settings) (b : Bench σ) :
    Bench.equipFailures settings (b.asked s r) = Bench.equipFailures settings b := rfl

theorem defaultResolver_of_error {e : FactoryError} (h : s.resolve r = .error e) (b : Bench σ) :
    defaultResolver s r b = (.error e, b.asked s r) := by
  unfold defaultResolver
  rw [h]
  rfl

theorem defaultResolver_of_ignored {standIn : RawModule}
    (h : s.resolve r = .ok (.ignored standIn)) (b : Bench σ) :
    defaultResolver s r b = (.ok (some (.module (.raw standIn))), b.asked s r) := by
  unfold defaultResolver
  rw [h]
  rfl

theorem defaultResolver_of_chain {c : Chain} (h : s.resolve r = .ok (.chain c)) (b : Bench σ) :
    defaultResolver s r b
      = ((Bench.equip r c (b.asked s r)).1.map fun d => some (.data d),
          (Bench.equip r c (b.asked s r)).2) := by
  unfold defaultResolver
  rw [h, Action.bind_apply]
  show (Bench.equip r c >>= fun d => pure (some (.data d)) : Action (Bench σ) (Option Resolved))
    (b.asked s r) = _
  rw [Action.bind_apply]
  cases Bench.equip r c (b.asked s r) with
  | mk equipped b' => cases equipped <;> rfl

/-- Data is what a chain is equipped to. -/
theorem defaultResolver_eq_data {b : Bench σ} {d : ResolvedImport}
    (h : (defaultResolver s r b).1 = .ok (some (.data d))) :
    ∃ c p g, s.resolve r = .ok (.chain c)
      ∧ d = ⟨c.descriptor r p g, r.info, r.dependencies⟩ := by
  cases hs : s.resolve r with
  | error e =>
    rw [defaultResolver_of_error hs] at h
    cases h
  | ok found =>
    cases found with
    | ignored standIn =>
      rw [defaultResolver_of_ignored hs] at h
      cases h
    | chain c =>
      rw [defaultResolver_of_chain hs] at h
      obtain ⟨equipped, he, hd⟩ := map_eq_ok_iff.1 h
      cases hd
      obtain ⟨p, g, rfl⟩ := Bench.equip_eq_ok he
      exact ⟨c, p, g, rfl, rfl⟩

end Resolver

end ImportChain
