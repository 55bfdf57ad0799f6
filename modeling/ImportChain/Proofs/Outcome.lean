/-
ImportChain.Proofs.Outcome — steps that may fail, one after the other.

A sequence of steps gives a value exactly if each of them does
(`bind_eq_ok_iff`, `mapM_eq_ok_iff`), and otherwise fails as the first of
them that does (`failure?_bind`, `failure?_mapM`).

`Earliest` picks the first of a list that has a property, also where no
test decides it.
-/
import Mathlib.Data.List.Forall2

namespace ImportChain.Outcome

variable {ε ε' α β : Type}

/-! ## Values -/

theorem bind_eq_ok_iff {x : Except ε α} {f : α → Except ε β} {b : β} :
    (x >>= f) = .ok b ↔ ∃ a, x = .ok a ∧ f a = .ok b := by
  cases x <;> simp [bind, Except.bind]

theorem map_eq_ok_iff {x : Except ε α} {f : α → β} {b : β} :
    x.map f = .ok b ↔ ∃ a, x = .ok a ∧ f a = b := by
  cases x <;> simp [Except.map]

theorem mapError_eq_ok_iff {x : Except ε α} {f : ε → ε'} {a : α} :
    x.mapError f = .ok a ↔ x = .ok a := by
  cases x <;> simp [Except.mapError]

/-- All steps of a list give values exactly if each gives its own. -/
theorem mapM_eq_ok_iff {f : α → Except ε β} : ∀ {xs : List α} {ys : List β},
    xs.mapM f = .ok ys ↔ List.Forall₂ (fun x y => f x = .ok y) xs ys
  | [], ys => by cases ys <;> simp [pure, Except.pure]
  | x :: xs, ys => by
      rw [List.mapM_cons, bind_eq_ok_iff]
      constructor
      · rintro ⟨y, hy, h⟩
        obtain ⟨rest, hrest, h⟩ := bind_eq_ok_iff.1 h
        cases h
        exact .cons hy (mapM_eq_ok_iff.1 hrest)
      · intro h
        cases h with
        | cons hy hrest => exact ⟨_, hy, bind_eq_ok_iff.2 ⟨_, mapM_eq_ok_iff.2 hrest, rfl⟩⟩

/-- Of a list of steps each followed by one of its own, all give values
exactly if each pair does. -/
theorem mapM_bind_mapM_eq_ok_iff {γ : Type} {f : α → Except ε β} {g : β → Except ε' γ}
    {xs : List α} {zs : List γ} :
    (∃ ys, xs.mapM f = .ok ys ∧ ys.mapM g = .ok zs)
      ↔ List.Forall₂ (fun x z => ∃ y, f x = .ok y ∧ g y = .ok z) xs zs := by
  simp only [mapM_eq_ok_iff]
  constructor
  · rintro ⟨ys, hxy, hyz⟩
    induction hxy generalizing zs with
    | nil =>
      cases hyz
      exact .nil
    | cons hx _ ih =>
      cases hyz with
      | cons hz hrest => exact .cons ⟨_, hx, hz⟩ (ih hrest)
  · intro h
    induction h with
    | nil => exact ⟨[], .nil, .nil⟩
    | cons hx _ ih =>
      obtain ⟨y, hy, hz⟩ := hx
      obtain ⟨ys, hys, hzs⟩ := ih
      exact ⟨y :: ys, .cons hy hys, .cons hz hzs⟩

/-! ## Failures -/

/-- How a step fails, if it does. -/
def failure? : Except ε α → Option ε
  | .ok _ => none
  | .error e => some e

theorem failure?_eq_none_iff {x : Except ε α} : failure? x = none ↔ ∃ a, x = .ok a := by
  cases x <;> simp [failure?]

theorem failure?_eq_some_iff {x : Except ε α} {e : ε} : failure? x = some e ↔ x = .error e := by
  cases x <;> simp [failure?]

theorem failure?_map (x : Except ε α) (f : α → β) : failure? (x.map f) = failure? x := by
  cases x <;> rfl

theorem failure?_mapError (x : Except ε α) (f : ε → ε') :
    failure? (x.mapError f) = (failure? x).map f := by
  cases x <;> rfl

/-- A step that fails is the last; after one that does not, the rest
counts. -/
theorem failure?_bind (x : Except ε α) (f : α → Except ε β) :
    failure? (x >>= f) = match x with
      | .ok a => failure? (f a)
      | .error e => some e := by
  cases x <;> rfl

/-- With a list of what may go wrong for each of two steps, they fail as the
first of both lists. -/
theorem failure?_bind_eq_head? {x : Except ε α} {f : α → Except ε β} {es es' : List ε}
    (hx : failure? x = es.head?) (hf : ∀ a, x = .ok a → failure? (f a) = es'.head?) :
    failure? (x >>= f) = (es ++ es').head? := by
  rw [failure?_bind, List.head?_append, ← hx]
  cases x with
  | error e => rfl
  | ok a => exact hf a rfl

/-- Steps of a list fail as the earliest of them that fails. -/
theorem failure?_mapM (f : α → Except ε β) : ∀ xs : List α,
    failure? (xs.mapM f) = (xs.filterMap fun x => failure? (f x)).head?
  | [] => rfl
  | x :: xs => by
      have ih := failure?_mapM f xs
      rw [List.mapM_cons, failure?_bind]
      cases hx : f x with
      | error e => rw [List.filterMap_cons_some (by rw [hx]; rfl)]; rfl
      | ok y =>
        rw [List.filterMap_cons_none (by rw [hx]; rfl), ← ih]
        show failure? (xs.mapM f >>= fun ys => pure (y :: ys)) = _
        rw [failure?_bind]
        cases xs.mapM f <;> rfl

end ImportChain.Outcome

namespace ImportChain

/-! ## The first of a list -/

/-- The first of a list that has a property. -/
def Earliest {α : Type} (p : α → Prop) (xs : List α) (x : α) : Prop :=
  ∃ before after, xs = before ++ x :: after ∧ (∀ y ∈ before, ¬ p y) ∧ p x

/-- What a list gives first comes from the earliest of its members that gives
anything. -/
theorem exists_earliest {α β : Type} {f : α → Option β} {p : α → Prop} {xs : List α}
    (hp : ∀ x, f x = none ↔ ¬ p x) (h : ∃ x ∈ xs, p x) :
    ∃ x b, Earliest p xs x ∧ f x = some b ∧ (xs.filterMap f).head? = some b := by
  obtain ⟨x, hx, hpx⟩ := h
  have hfx : (f x).isSome = true :=
    Option.isSome_iff_ne_none.2 fun hnone => (hp x).1 hnone hpx
  obtain ⟨b, hb⟩ := Option.isSome_iff_exists.1 (List.findSome?_isSome_iff.2 ⟨x, hx, hfx⟩)
  obtain ⟨before, x, after, hxs, hf, hbefore⟩ := List.findSome?_eq_some_iff.1 hb
  refine ⟨x, b, ⟨before, after, hxs, fun y hy => (hp y).1 (hbefore y hy), ?_⟩, hf,
    by rw [List.head?_filterMap, hb]⟩
  by_contra hnot
  rw [(hp x).2 hnot] at hf
  cases hf

/-- What is found first comes from the earliest member that gives anything. -/
theorem findSome?_eq_some_iff_earliest {α β : Type} {f : α → Option β} {p : α → Prop}
    {xs : List α} {b : β} (hp : ∀ x, f x = none ↔ ¬ p x) :
    xs.findSome? f = some b ↔ ∃ x, Earliest p xs x ∧ f x = some b := by
  rw [List.findSome?_eq_some_iff]
  constructor
  · rintro ⟨before, x, after, hxs, hf, hbefore⟩
    have hx : p x := by
      by_contra hnot
      rw [(hp x).2 hnot] at hf
      cases hf
    exact ⟨x, ⟨before, after, hxs, fun y hy => (hp y).1 (hbefore y hy), hx⟩, hf⟩
  · rintro ⟨x, ⟨before, after, hxs, hbefore, -⟩, hf⟩
    exact ⟨before, x, after, hxs, hf, fun y hy => (hp y).2 (hbefore y hy)⟩

theorem find?_eq_some_iff_earliest {α : Type} {test : α → Bool} {xs : List α} {x : α} :
    xs.find? test = some x ↔ Earliest (fun y => test y = true) xs x := by
  rw [List.find?_eq_some_iff_append]
  constructor
  · rintro ⟨hx, before, after, hxs, hbefore⟩
    exact ⟨before, after, hxs, fun y hy => by simpa using hbefore y hy, hx⟩
  · rintro ⟨before, after, hxs, hbefore, hx⟩
    exact ⟨hx, before, after, hxs, fun y hy => by simpa using hbefore y hy⟩

theorem Earliest.mem {α : Type} {p : α → Prop} {xs : List α} {x : α} (h : Earliest p xs x) :
    x ∈ xs ∧ p x := by
  obtain ⟨before, after, rfl, -, hx⟩ := h
  exact ⟨by simp, hx⟩

/-- The first of a list that has a property stands before all others that
have it. -/
theorem Earliest.idxOf_lt {α : Type} [BEq α] [LawfulBEq α] {p : α → Prop} {xs : List α} {x y : α}
    (h : Earliest p xs x) (hy : p y) (hne : y ≠ x) : xs.idxOf x < xs.idxOf y := by
  obtain ⟨before, after, rfl, hbefore, hx⟩ := h
  rw [List.idxOf_append_of_notMem fun hmem => hbefore x hmem hx,
    List.idxOf_append_of_notMem fun hmem => hbefore y hmem hy, List.idxOf_cons_self,
    List.idxOf_cons_ne _ (Ne.symm hne)]
  omega

end ImportChain
