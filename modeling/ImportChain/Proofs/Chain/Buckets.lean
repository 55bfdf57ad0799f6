/-
ImportChain.Proofs.Chain.Buckets — which effects of the rules count for a
request, and where.

A request suppresses positions by three flags (`Suppression.Suppresses`). It
drops the loaders of these positions, malformed ones among them, before
anything else happens to them (`Suppression.counted`).
`Buckets.ofEffects_eq_ok`: sorted effects are, position by position, what is
left. `failure?_ofEffects`: sorting fails as the earliest malformed loader
that is left.
-/
import ImportChain.Chain
import ImportChain.Proofs.Outcome

namespace ImportChain

open Outcome

/-! ## Effects -/

namespace RuleEffect

/-- The loader that an effect adds. -/
def loader? : RuleEffect → Option LoaderSpec
  | .use loader _ => some loader
  | _ => none

/-- The loader that an effect adds at a position. -/
def loaderAt? (e : Enforce) : RuleEffect → Option LoaderSpec
  | .use loader e' => if e' = e then some loader else none
  | _ => none

/-- The failure of a malformed loader. -/
def malformed? : RuleEffect → Option FactoryError
  | .malformedUse loader found _ => some (.malformedOptions loader found)
  | _ => none

/-- What an effect sets. -/
def setting? : RuleEffect → Option (String × Json)
  | .setting key value => some (key, value)
  | _ => none

theorem perm_loaderAt? : ∀ effects : List RuleEffect,
    (effects.filterMap (loaderAt? .post) ++ effects.filterMap (loaderAt? .normal)
      ++ effects.filterMap (loaderAt? .pre)).Perm (effects.filterMap loader?)
  | [] => List.Perm.refl _
  | effect :: effects => by
      have ih := perm_loaderAt? effects
      cases effect with
      | setting key value => exact ih
      | malformedUse loader found e => exact ih
      | use loader e =>
        refine List.Perm.trans ?_ (ih.cons loader)
        cases e with
        | post => exact List.Perm.refl _
        | normal => exact List.perm_middle.append_right _
        | pre => exact List.perm_middle

end RuleEffect

namespace Suppression

/-- The positions whose rule loaders a request suppresses, each by its own
flag. -/
inductive Suppresses (s : Suppression) : Enforce → Prop
  | post (h : s.dropsPost = true) : Suppresses s .post
  | normal (h : s.dropsNormal = true) : Suppresses s .normal
  | pre (h : s.dropsPre = true) : Suppresses s .pre

theorem drops_iff_suppresses {s : Suppression} {e : Enforce} :
    s.drops e = true ↔ s.Suppresses e := by
  constructor
  · intro h
    cases e with
    | post => exact .post h
    | normal => exact .normal h
    | pre => exact .pre h
  · rintro (h | h | h) <;> exact h

/-- The loader that an effect adds to a request, unless the flag of its
position is set. -/
def unsuppressed? (s : Suppression) : RuleEffect → Option LoaderSpec
  | .use loader .post => if s.dropsPost then none else some loader
  | .use loader .normal => if s.dropsNormal then none else some loader
  | .use loader .pre => if s.dropsPre then none else some loader
  | .malformedUse _ _ _ => none
  | .setting _ _ => none

/-- Whether an effect counts for a request. -/
def counts (s : Suppression) : RuleEffect → Bool
  | .setting _ _ => true
  | .use _ e => !s.drops e
  | .malformedUse _ _ e => !s.drops e

/-- The effects that count for a request. -/
def counted (s : Suppression) (effects : List RuleEffect) : List RuleEffect :=
  effects.filter s.counts

/-- The loaders at a position that count for a request: none if it
suppresses the position. -/
def loadersAt (s : Suppression) (e : Enforce) (effects : List RuleEffect) : List LoaderSpec :=
  if s.drops e then [] else effects.filterMap (RuleEffect.loaderAt? e)

/-- At one position all loaders count or none. -/
theorem loaderAt?_of_counts (s : Suppression) (e : Enforce) (effect : RuleEffect) :
    (if s.counts effect then effect.loaderAt? e else none)
      = if s.drops e then none else effect.loaderAt? e := by
  cases effect with
  | setting key value => simp [RuleEffect.loaderAt?]
  | malformedUse loader found e' => simp [RuleEffect.loaderAt?]
  | use loader e' =>
    by_cases he : e' = e
    · subst he
      cases hd : s.drops e' <;> simp [counts, hd]
    · simp [RuleEffect.loaderAt?, he]

theorem filterMap_loaderAt?_counted (s : Suppression) (e : Enforce) (effects : List RuleEffect) :
    (s.counted effects).filterMap (RuleEffect.loaderAt? e) = s.loadersAt e effects := by
  unfold counted loadersAt
  rw [List.filterMap_filter]
  simp only [loaderAt?_of_counts]
  split
  · exact List.filterMap_none effects
  · rfl

theorem unsuppressed?_use (s : Suppression) (loader : LoaderSpec) (e : Enforce) :
    s.unsuppressed? (.use loader e) = if s.drops e then none else some loader := by
  cases e <;> rfl

theorem filterMap_loader?_counted (s : Suppression) (effects : List RuleEffect) :
    (s.counted effects).filterMap RuleEffect.loader? = effects.filterMap s.unsuppressed? := by
  unfold counted
  rw [List.filterMap_filter]
  refine List.filterMap_congr fun effect _ => ?_
  cases effect with
  | setting key value => rfl
  | malformedUse loader found e => exact ite_self _
  | use loader e =>
    rw [unsuppressed?_use]
    cases hd : s.drops e <;> simp [counts, hd, RuleEffect.loader?]

/-- Each loader that is not suppressed stands at one position, once. -/
theorem perm_loadersAt (s : Suppression) (effects : List RuleEffect) :
    (s.loadersAt .post effects ++ s.loadersAt .normal effects ++ s.loadersAt .pre effects).Perm
      (effects.filterMap s.unsuppressed?) := by
  simp only [← filterMap_loaderAt?_counted, ← filterMap_loader?_counted]
  exact RuleEffect.perm_loaderAt? _

theorem use_mem_of_mem_loadersAt {s : Suppression} {e : Enforce}
    {effects : List RuleEffect} {spec : LoaderSpec} (h : spec ∈ s.loadersAt e effects) :
    .use spec e ∈ effects := by
  unfold loadersAt at h
  split at h
  · cases h
  · obtain ⟨effect, he, hspec⟩ := List.mem_filterMap.1 h
    cases effect with
    | use loader e' =>
      by_cases hat : e' = e
      · rw [RuleEffect.loaderAt?, if_pos hat] at hspec
        rw [← hat, ← Option.some.inj hspec]
        exact he
      · simp [RuleEffect.loaderAt?, hat] at hspec
    | setting key value => simp [RuleEffect.loaderAt?] at hspec
    | malformedUse loader found e' => simp [RuleEffect.loaderAt?] at hspec

theorem filterMap_setting?_counted (s : Suppression) (effects : List RuleEffect) :
    (s.counted effects).filterMap RuleEffect.setting? = effects.filterMap RuleEffect.setting? := by
  unfold counted
  rw [List.filterMap_filter]
  congr 1
  funext effect
  cases effect <;> simp [counts, RuleEffect.setting?]

end Suppression

/-! ## Sorting -/

namespace Buckets

variable {s : Suppression} {effect : RuleEffect} {effects : List RuleEffect} {b b' : Buckets}

/-- The loaders at a position. -/
def bucket (b : Buckets) : Enforce → List LoaderSpec
  | .post => b.post
  | .normal => b.normal
  | .pre => b.pre

theorem put_of_not_counts (h : ¬ s.counts effect) (b : Buckets) : put s b effect = .ok b := by
  cases effect <;> simp_all [Suppression.counts, put]

/-- What one more effect changes if it counts. -/
theorem put_eq_ok (hc : s.counts effect) (h : put s b effect = .ok b') :
    b'.settings = b.settings.applyAll effect.setting?.toList
      ∧ ∀ e, b'.bucket e = b.bucket e ++ (effect.loaderAt? e).toList := by
  cases effect with
  | setting key value =>
    cases h
    exact ⟨rfl, fun e => by cases e <;> simp [RuleEffect.loaderAt?, bucket]⟩
  | malformedUse loader found e => simp_all [Suppression.counts, put]
  | use loader e =>
    have hd : s.drops e = false := by simpa [Suppression.counts] using hc
    rw [put, hd] at h
    cases h
    refine ⟨by cases e <;> rfl, fun e' => ?_⟩
    cases e <;> cases e' <;> simp [add, bucket, RuleEffect.loaderAt?]

theorem failure?_put (hc : s.counts effect) : failure? (put s b effect) = effect.malformed? := by
  cases effect with
  | setting key value => rfl
  | use loader e => rfl
  | malformedUse loader found e =>
    have hd : s.drops e = false := by simpa [Suppression.counts] using hc
    rw [put, hd]
    rfl

/-- Effects that do not count change nothing. -/
theorem foldlM_put_counted (s : Suppression) : ∀ (effects : List RuleEffect) (b : Buckets),
    (s.counted effects).foldlM (put s) b = effects.foldlM (put s) b
  | [], _ => rfl
  | effect :: effects, b => by
      unfold Suppression.counted
      by_cases hc : s.counts effect
      · rw [List.filter_cons_of_pos hc, List.foldlM_cons, List.foldlM_cons]
        congr 1
        funext b'
        exact foldlM_put_counted s effects b'
      · rw [List.filter_cons_of_neg hc, List.foldlM_cons, put_of_not_counts hc]
        exact foldlM_put_counted s effects b

theorem foldlM_put_eq_ok : ∀ {effects : List RuleEffect} {b b' : Buckets},
    (∀ effect ∈ effects, s.counts effect) → effects.foldlM (put s) b = .ok b' →
      b'.settings = b.settings.applyAll (effects.filterMap RuleEffect.setting?)
      ∧ ∀ e, b'.bucket e = b.bucket e ++ effects.filterMap (RuleEffect.loaderAt? e)
  | [], b, b', _, h => by
      cases h
      exact ⟨rfl, fun e => (List.append_nil _).symm⟩
  | effect :: effects, b, b', hc, h => by
      rw [List.foldlM_cons] at h
      obtain ⟨mid, hmid, hrest⟩ := bind_eq_ok_iff.1 h
      obtain ⟨hset, hat⟩ := put_eq_ok (hc _ List.mem_cons_self) hmid
      obtain ⟨hset', hat'⟩ :=
        foldlM_put_eq_ok (fun _ hm => hc _ (List.mem_cons_of_mem _ hm)) hrest
      constructor
      · rw [hset', hset, List.filterMap_cons]
        cases effect.setting? <;> rfl
      · intro e
        rw [hat', hat, List.append_assoc, List.filterMap_cons]
        cases effect.loaderAt? e <;> rfl

theorem failure?_foldlM_put : ∀ {effects : List RuleEffect} (b : Buckets),
    (∀ effect ∈ effects, s.counts effect) →
      failure? (effects.foldlM (put s) b) = (effects.filterMap RuleEffect.malformed?).head?
  | [], _, _ => rfl
  | effect :: effects, b, hc => by
      have hput := failure?_put (b := b) (hc _ List.mem_cons_self)
      rw [List.foldlM_cons, failure?_bind]
      cases hb : put s b effect with
      | error e =>
        rw [hb] at hput
        rw [List.filterMap_cons_some hput.symm]
        rfl
      | ok b' =>
        rw [hb] at hput
        rw [List.filterMap_cons_none hput.symm]
        exact failure?_foldlM_put b' fun _ hm => hc _ (List.mem_cons_of_mem _ hm)

theorem counts_of_mem_counted (h : effect ∈ s.counted effects) : s.counts effect :=
  (List.mem_filter.1 h).2

/-- Sorted effects, by position. -/
theorem ofEffects_eq_ok (h : ofEffects s effects = .ok b) :
    b.settings = Settings.empty.applyAll (effects.filterMap RuleEffect.setting?)
      ∧ b.post = s.loadersAt .post effects
      ∧ b.normal = s.loadersAt .normal effects
      ∧ b.pre = s.loadersAt .pre effects := by
  rw [ofEffects, ← foldlM_put_counted] at h
  obtain ⟨hset, hat⟩ := foldlM_put_eq_ok (fun _ hm => counts_of_mem_counted hm) h
  rw [s.filterMap_setting?_counted] at hset
  simp only [s.filterMap_loaderAt?_counted] at hat
  exact ⟨hset, hat .post, hat .normal, hat .pre⟩

/-- Sorting fails as the earliest malformed loader that counts. -/
theorem failure?_ofEffects (s : Suppression) (effects : List RuleEffect) :
    failure? (ofEffects s effects) = ((s.counted effects).filterMap RuleEffect.malformed?).head? := by
  rw [ofEffects, ← foldlM_put_counted]
  exact failure?_foldlM_put {} fun _ hm => counts_of_mem_counted hm

/-- With every position suppressed only settings are left. -/
theorem ofEffects_everything (effects : List RuleEffect) :
    ofEffects .everything effects
      = .ok { settings := Settings.empty.applyAll (effects.filterMap RuleEffect.setting?) } := by
  have hnone : (Suppression.everything.counted effects).filterMap RuleEffect.malformed? = [] := by
    rw [List.filterMap_eq_nil_iff]
    intro effect he
    cases effect with
    | malformedUse loader found e =>
      have := counts_of_mem_counted he
      cases e <;> cases this
    | setting key value => rfl
    | use loader e => rfl
  obtain ⟨b, hb⟩ := failure?_eq_none_iff.1
    ((failure?_ofEffects .everything effects).trans (by rw [hnone]; rfl))
  obtain ⟨hsettings, hpost, hnormal, hpre⟩ := ofEffects_eq_ok hb
  rw [hb]
  obtain ⟨settings, post, normal, pre⟩ := b
  cases hsettings
  cases hpost
  cases hnormal
  cases hpre
  rfl

end Buckets

end ImportChain
