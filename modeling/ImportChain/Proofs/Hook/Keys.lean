/-
ImportChain.Proofs.Hook.Keys — the hooks of different keys do not see each
other.

Steps on one hook are run in order, each on what the ones before it left
(`Kind.answers`); steps on a family of hooks go through its keys
(`Kind.familyAnswers`). What a family answers at a key is what one hook
answers that is only taken through the steps at this key, with the same taps
visited in the same order (`keys_kept_apart`): one step leaves all other
keys alone (`Kind.lone_familyAfter_reach`), and the rest is an induction on
the steps.
-/
import ImportChain.Hook.Keyed
import ImportChain.Proofs.Hook.Snapshot
import ImportChain.Proofs.KeyMap
import Mathlib.Logic.Function.Basic

namespace ImportChain

/-! ## Hooks by key -/

namespace KeyedHook

variable {σ α β ρ : Type}

theorem hook_put (f : KeyedHook σ α β) (key : String) (h : Hook σ α β) (other : String) :
    (f.put key h).hook other = if other = key then h else f.hook other := by
  unfold hook put
  rw [KeyMap.get?_insert]
  split <;> rfl

theorem hook_after (f : KeyedHook σ α β) (key : String) (o : Hook.Outcome σ α β ρ) (other : String) :
    (f.after key o).hook other = if other = key then (f.hook key).after o else f.hook other :=
  hook_put f key _ other

theorem has_iff_mem_keys (f : KeyedHook σ α β) (key : String) :
    f.has key = true ↔ key ∈ f.keys := by
  unfold has KeyMap.contains keys
  rw [Option.isSome_iff_ne_none, ne_eq, KeyMap.get?_eq_none_iff, not_not]

end KeyedHook

namespace Hook

variable {σ α β τ γ ρ : Type}

/-! ## The visits of a call, computed -/

/-- The visits of a call on taps: each tap sees what the answers before it
make of the argument, and the world as the tap before it left it. -/
def visits (stops : β → Bool) (next : α → β → α) :
    List (Tap σ α β) → α → σ → List (Visit σ α β)
  | [], _, _ => []
  | t :: rest, arg, world =>
    let v : Visit σ α β := ⟨t, arg, world⟩
    v :: if stops v.answer then [] else visits stops next rest (next arg v.answer) v.left

section RunsOn

variable {stops : β → Bool} {next : α → β → α} {t : Tap σ α β} {taps : List (Tap σ α β)} {arg : α}
  {world : σ} {v : Visit σ α β} {later : List (Visit σ α β)} {o : Outcome σ α β ρ}

theorem RunsOn.head (h : RunsOn stops next (t :: taps) arg world (v :: later) o) :
    v = ⟨t, arg, world⟩ := by
  have htap : v.tap = t := (List.cons_prefix_cons.1 h.inOrder).1
  have harg : v.arg = arg := h.args [] v later rfl
  have hworld : v.world = world := (List.cons.inj h.worlds).1
  rw [← htap, ← harg, ← hworld]

/-- A call that goes on after its first visit makes the others on the rest of
the taps. -/
theorem RunsOn.tail (h : RunsOn stops next (t :: taps) arg world (v :: later) o)
    (hgo : stops v.answer = false) :
    RunsOn stops next taps (next arg v.answer) v.left later
      (⟨o.result, later.flatMap Visit.registers, o.world⟩ : Outcome σ α β ρ) where
  inOrder := (List.cons_prefix_cons.1 h.inOrder).2
  goesOn v' hv' := h.goesOn v' (by
    cases later with
    | nil => cases hv'
    | cons second rest => exact List.mem_cons_of_mem v hv')
  ends := by
    rcases h.ends with hall | ⟨v', hlast, hstops⟩
    · exact Or.inl (List.cons.inj hall).2
    · cases later with
      | nil =>
        obtain rfl : v = v' := Option.some.inj hlast
        rw [hgo] at hstops
        cases hstops
      | cons second rest => exact Or.inr ⟨v', hlast, hstops⟩
  args before v' after hsplit := h.args (v :: before) v' after (by rw [hsplit]; rfl)
  worlds := (List.cons.inj h.worlds).2
  added := rfl

/-- No call has other visits. -/
theorem RunsOn.eq_visits {seen : List (Visit σ α β)} (h : RunsOn stops next taps arg world seen o) :
    seen = visits stops next taps arg world := by
  induction taps generalizing arg world seen o with
  | nil => exact List.map_eq_nil_iff.1 (List.prefix_nil.1 h.inOrder)
  | cons t rest ih =>
    cases seen with
    | nil =>
      rcases h.ends with hall | ⟨v, hlast, -⟩
      · cases hall
      · cases hlast
    | cons v later =>
      cases h.head
      by_cases hstops : stops (Visit.answer ⟨t, arg, world⟩) = true
      · -- the visit that stops a call is its last one
        have hlast : later = [] := by
          cases later with
          | nil => rfl
          | cons second others =>
            have hgo := h.goesOn _ List.mem_cons_self
            rw [hstops] at hgo
            cases hgo
        rw [visits, if_pos hstops, hlast]
      · rw [visits, if_neg hstops, ← ih (h.tail (Bool.eq_false_iff.2 hstops))]

end RunsOn

/-! ## Kinds of hooks -/

/-- How the taps of a hook are called, with the visits of each call. -/
structure Kind (σ α β ρ : Type) where
  call : Hook σ α β → α → σ → Outcome σ α β ρ
  stops : β → Bool
  next : α → β → α
  runsOn (h : Hook σ α β) (arg : α) (world : σ) :
    RunsOn stops next h.taps arg world (visits stops next h.taps arg world) (call h arg world)

namespace Kind

/-- Hooks that hand a value from tap to tap. -/
def waterfall (σ τ γ : Type) :
    Kind σ (τ × γ) (Except HookError (Waterfall τ)) (Except HookError τ) where
  call := waterfallOn
  stops := stopsWaterfall
  next := nextWaterfall
  runsOn h arg world := by
    obtain ⟨seen, hruns, -⟩ := runsOn_runWaterfall h.name h.taps arg.1 arg.2 world
    exact hruns.eq_visits ▸ hruns

/-- Hooks that stop at the first result. -/
def bail (σ α ρ : Type) :
    Kind σ α (Except HookError (Option ρ)) (Except HookError (Option ρ)) where
  call := Hook.bail
  stops := stopsBail
  next arg _ := arg
  runsOn h arg world := by
    obtain ⟨seen, hruns, -⟩ := runsOn_runBail h.name h.taps arg world
    exact hruns.eq_visits ▸ hruns

/-- Hooks whose taps only watch. -/
def multicast (σ α : Type) : Kind σ α Unit Unit where
  call := Hook.multicast
  stops _ := false
  next arg _ := arg
  runsOn h arg world := by
    obtain ⟨seen, hruns⟩ := runsOn_runMulticast h.taps arg world
    exact hruns.eq_visits ▸ hruns

end Kind

/-! ## Steps on one hook -/

/-- Something that is done to a hook, or asked of it. -/
inductive Step (σ α β : Type) where
  | tap (t : Tap σ α β)
  /-- A call. `since` is what others have done to the world of the taps since
  these ran last: nothing, if they share it with nobody. -/
  | call (arg : α) (since : σ → σ)
  | isUsed
  | tapNames

/-- What a step gives. -/
inductive Answer (σ α β ρ : Type) where
  | tapped
  /-- The taps that ran, in order, and what the call came to. -/
  | called (visits : List (Visit σ α β)) (o : Outcome σ α β ρ)
  | used (found : Bool)
  | names (taps : List String)

/-- A hook, and the world as its taps left it. -/
structure Lone (σ α β : Type) where
  hook : Hook σ α β
  world : σ

namespace Kind

variable (kind : Kind σ α β ρ)

def answer (l : Lone σ α β) : Step σ α β → Answer σ α β ρ
  | .tap _ => .tapped
  | .call arg since =>
    .called (visits kind.stops kind.next l.hook.taps arg (since l.world))
      (kind.call l.hook arg (since l.world))
  | .isUsed => .used l.hook.isUsed
  | .tapNames => .names l.hook.tapNames

def after (l : Lone σ α β) : Step σ α β → Lone σ α β
  | .tap t => { l with hook := l.hook.tap t }
  | .call arg since =>
    let o := kind.call l.hook arg (since l.world)
    ⟨l.hook.after o, o.world⟩
  | .isUsed => l
  | .tapNames => l

/-- The answers to steps, each on what the steps before it left. -/
def answers : Lone σ α β → List (Step σ α β) → List (Answer σ α β ρ)
  | _, [] => []
  | l, step :: steps => kind.answer l step :: answers (kind.after l step) steps

end Kind

/-! ## Steps on a family of hooks -/

/-- A family of hooks, and the world of the taps of each key as they left
it. -/
structure Family (σ α β : Type) where
  hooks : KeyedHook σ α β
  worlds : String → σ

/-- The hook of a key with its world. -/
def Family.lone (f : Family σ α β) (key : String) : Lone σ α β :=
  ⟨f.hooks.hook key, f.worlds key⟩

/-- A step on the hook of a key, which is made if it is not there, or a
question about the keys. -/
inductive FamilyStep (σ α β : Type) where
  | reach (key : String) (step : Step σ α β)
  | has (key : String)
  | keys

inductive FamilyAnswer (σ α β ρ : Type) where
  | reached (key : String) (answer : Answer σ α β ρ)
  | has (found : Bool)
  | keys (keys : List String)

/-- The steps at a key. -/
def FamilyStep.at? (key : String) : FamilyStep σ α β → Option (Step σ α β)
  | .reach other step => if other = key then some step else none
  | .has _ => none
  | .keys => none

/-- The answers at a key. -/
def FamilyAnswer.at? (key : String) : FamilyAnswer σ α β ρ → Option (Answer σ α β ρ)
  | .reached other answer => if other = key then some answer else none
  | .has _ => none
  | .keys _ => none

namespace Kind

variable (kind : Kind σ α β ρ)

def familyAnswer (f : Family σ α β) : FamilyStep σ α β → FamilyAnswer σ α β ρ
  | .reach key step => .reached key (kind.answer (f.lone key) step)
  | .has key => .has (f.hooks.has key)
  | .keys => .keys f.hooks.keys

def familyAfter (f : Family σ α β) : FamilyStep σ α β → Family σ α β
  | .reach key (.tap t) => { f with hooks := f.hooks.tap key t }
  | .reach key (.call arg since) =>
    let o := kind.call (f.hooks.hook key) arg (since (f.worlds key))
    { hooks := f.hooks.after key o, worlds := Function.update f.worlds key o.world }
  | .reach key .isUsed => { f with hooks := f.hooks.touch key }
  | .reach key .tapNames => { f with hooks := f.hooks.touch key }
  | .has _ => f
  | .keys => f

def familyAnswers : Family σ α β → List (FamilyStep σ α β) → List (FamilyAnswer σ α β ρ)
  | _, [] => []
  | f, step :: steps => kind.familyAnswer f step :: familyAnswers (kind.familyAfter f step) steps

end Kind

/-! ## One step -/

section Step

variable {kind : Kind σ α β ρ} {f : Family σ α β}

/-- A step at a key puts its hook in place, and changes no other world. -/
theorem Kind.familyAfter_reach (key : String) (step : Step σ α β) :
    kind.familyAfter f (.reach key step)
      = { hooks := f.hooks.put key (kind.after (f.lone key) step).hook
          worlds := Function.update f.worlds key (kind.after (f.lone key) step).world } := by
  cases step with
  | call arg since => rfl
  | tap t => exact congrArg (Family.mk _) (Function.update_eq_self key f.worlds).symm
  | isUsed => exact congrArg (Family.mk _) (Function.update_eq_self key f.worlds).symm
  | tapNames => exact congrArg (Family.mk _) (Function.update_eq_self key f.worlds).symm

/-- A step at a key does to its hook what it does to one hook, and nothing to
the hooks of other keys. -/
theorem Kind.lone_familyAfter_reach (key : String) (step : Step σ α β) (other : String) :
    (kind.familyAfter f (.reach key step)).lone other
      = if other = key then kind.after (f.lone key) step else f.lone other := by
  rw [familyAfter_reach]
  unfold Family.lone
  simp only [KeyedHook.hook_put, Function.update_apply]
  split <;> rfl

theorem Kind.mem_keys_familyAfter {step : FamilyStep σ α β} {key : String} :
    key ∈ (kind.familyAfter f step).hooks.keys
      ↔ key ∈ f.hooks.keys ∨ ∃ s, step = .reach key s := by
  cases step with
  | has other => simp [familyAfter]
  | keys => simp [familyAfter]
  | reach other s =>
    rw [familyAfter_reach]
    refine KeyMap.mem_keys_insert.trans ?_
    rw [or_comm]
    refine or_congr_right ⟨?_, ?_⟩
    · rintro rfl
      exact ⟨s, rfl⟩
    · rintro ⟨_, ⟨⟩⟩
      rfl

theorem Kind.sorted_familyAfter (h : f.hooks.keys.Pairwise (· < ·)) (step : FamilyStep σ α β) :
    (kind.familyAfter f step).hooks.keys.Pairwise (· < ·) := by
  cases step with
  | has other => exact h
  | keys => exact h
  | reach other s =>
    rw [familyAfter_reach]
    exact KeyMap.sorted_insert other _ h

end Step

/-! ## All steps -/

namespace Kind

variable {kind : Kind σ α β ρ}

/-- What a family answers at a key depends on the steps at this key, and on
nothing else. -/
theorem answers_at_key (key : String) : ∀ (steps : List (FamilyStep σ α β)) (f : Family σ α β),
    (kind.familyAnswers f steps).filterMap (FamilyAnswer.at? key)
      = kind.answers (f.lone key) (steps.filterMap (FamilyStep.at? key))
  | [], _ => rfl
  | .has other :: steps, f => answers_at_key key steps f
  | .keys :: steps, f => answers_at_key key steps f
  | .reach other step :: steps, f => by
      have ih := answers_at_key key steps (kind.familyAfter f (.reach other step))
      rw [lone_familyAfter_reach] at ih
      by_cases h : other = key
      · subst h
        rw [if_pos rfl] at ih
        have hanswer : FamilyAnswer.at? other (kind.familyAnswer f (.reach other step))
            = some (kind.answer (f.lone other) step) := if_pos rfl
        have hstep : FamilyStep.at? other (.reach other step) = some step := if_pos rfl
        rw [familyAnswers, List.filterMap_cons_some hanswer, List.filterMap_cons_some hstep, ih,
          answers]
      · -- neither the step nor its answer is seen at this key
        rw [if_neg (Ne.symm h)] at ih
        have hanswer : FamilyAnswer.at? key (kind.familyAnswer f (.reach other step)) = none :=
          if_neg h
        have hstep : FamilyStep.at? key (.reach other step) = none := if_neg h
        rw [familyAnswers, List.filterMap_cons_none hanswer, List.filterMap_cons_none hstep, ih]

theorem mem_keys_foldl {key : String} : ∀ {steps : List (FamilyStep σ α β)} {f : Family σ α β},
    key ∈ (steps.foldl kind.familyAfter f).hooks.keys
      ↔ key ∈ f.hooks.keys ∨ ∃ s, .reach key s ∈ steps
  | [], f => by simp
  | step :: steps, f => by
      rw [List.foldl_cons, mem_keys_foldl, mem_keys_familyAfter, or_assoc, ← exists_or]
      simp only [List.mem_cons, eq_comm]

theorem sorted_foldl : ∀ (steps : List (FamilyStep σ α β)) {f : Family σ α β},
    f.hooks.keys.Pairwise (· < ·) →
      (steps.foldl kind.familyAfter f).hooks.keys.Pairwise (· < ·)
  | [], _, h => h
  | step :: steps, _, h => sorted_foldl steps (sorted_familyAfter h step)

/-- A step is answered on what the steps before it left. -/
theorem familyAnswers_getElem? (step : FamilyStep σ α β) (later : List (FamilyStep σ α β)) :
    ∀ (before : List (FamilyStep σ α β)) (f : Family σ α β),
      (kind.familyAnswers f (before ++ step :: later))[before.length]?
        = some (kind.familyAnswer (before.foldl kind.familyAfter f) step)
  | [], _ => rfl
  | first :: before, f => familyAnswers_getElem? step later before (kind.familyAfter f first)

/-- Whether the hooks of a new family do not see each other. At every key it
answers what one hook of the same name answers to the steps at this key, and
the keys are those that were reached so far, in order. -/
structure KeepsApart (kind : Kind σ α β ρ) : Prop where
  answers : ∀ (name : String) (worlds : String → σ) (steps : List (FamilyStep σ α β))
    (key : String),
    (kind.familyAnswers ⟨⟨name, []⟩, worlds⟩ steps).filterMap (FamilyAnswer.at? key)
      = kind.answers ⟨⟨name, []⟩, worlds key⟩ (steps.filterMap (FamilyStep.at? key))
  keys : ∀ (name : String) (worlds : String → σ) (before later : List (FamilyStep σ α β)),
    ∃ keys, (kind.familyAnswers ⟨⟨name, []⟩, worlds⟩ (before ++ .keys :: later))[before.length]?
        = some (.keys keys)
      ∧ keys.Pairwise (· < ·) ∧ ∀ key, key ∈ keys ↔ ∃ s, .reach key s ∈ before
  has : ∀ (name : String) (worlds : String → σ) (before later : List (FamilyStep σ α β))
    (key : String),
    ∃ found, (kind.familyAnswers ⟨⟨name, []⟩, worlds⟩ (before ++ .has key :: later))[before.length]?
        = some (.has found)
      ∧ (found = true ↔ ∃ s, .reach key s ∈ before)

theorem keepsApart (kind : Kind σ α β ρ) : kind.KeepsApart where
  answers name worlds steps key := answers_at_key key steps ⟨⟨name, []⟩, worlds⟩
  keys name worlds before later := by
    refine ⟨_, familyAnswers_getElem? .keys later before _, sorted_foldl before .nil, fun key => ?_⟩
    exact mem_keys_foldl.trans (or_iff_right List.not_mem_nil)
  has name worlds before later key := by
    refine ⟨_, familyAnswers_getElem? (.has key) later before _, ?_⟩
    rw [KeyedHook.has_iff_mem_keys]
    exact mem_keys_foldl.trans (or_iff_right List.not_mem_nil)

end Kind

/-- Hooks of different keys do not interfere, of whatever kind they are:
however the steps at several keys alternate, and also if calls fail or taps
register others on their own hook, the answers at a key and the taps that
run for it are those of one hook. Questions about the keys make none. -/
theorem keys_kept_apart :
    (∀ σ τ γ : Type, (Kind.waterfall σ τ γ).KeepsApart)
      ∧ (∀ σ α ρ : Type, (Kind.bail σ α ρ).KeepsApart)
      ∧ ∀ σ α : Type, (Kind.multicast σ α).KeepsApart :=
  ⟨fun _ _ _ => Kind.keepsApart _, fun _ _ _ => Kind.keepsApart _, fun _ _ => Kind.keepsApart _⟩

/-- A tap that registers another one is at its own key only. -/
example :
    let more : Tap Nat Unit Unit := .mk "more" (fun _ n => ((), n + 1)) fun _ _ =>
      [.plain "late" fun _ n => ((), n)]
    let given := (Kind.multicast Nat Unit).familyAnswers ⟨⟨"seen", []⟩, fun _ => 0⟩
      [.reach "json" (.tap more), .has "css", .reach "json" (.call () id),
        .reach "json" .tapNames, .reach "css" .tapNames, .keys]
    given.drop 3 = [.reached "json" (.names ["more", "late"]), .reached "css" (.names []),
      .keys ["css", "json"]] := by rfl

end Hook

end ImportChain
