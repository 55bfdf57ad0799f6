/-
ImportChain.Proofs.Hook.Snapshot — a call runs the taps that were there when
it began.

A call visits taps one after the other. `RunsOn` says which: a beginning of
the list of taps, up to the first whose answer stops the call, each with the
argument and the world that the ones before it left. It is built visit by
visit (`RunsOn.nil`, `RunsOn.last`, `RunsOn.cons`), and each kind of hook
gives the result that its visits make (`runsOn_runWaterfall`,
`runsOn_runBail`, `runsOn_runMulticast`).

`Life` is what happens to a hook: taps are registered and calls are made, and
a call registers what its visits do. `calls_run_on_snapshot` is the main
statement: whatever happened before, a call runs on what was registered until
then, and on nothing else.
-/
import ImportChain.Hook.Basic
import Mathlib.Data.List.Basic

namespace ImportChain.Hook

variable {σ α β τ γ ρ : Type}

/-! ## Visits -/

/-- A tap that a call runs, with what it sees. -/
structure Visit (σ α β : Type) where
  tap : Tap σ α β
  arg : α
  world : σ

namespace Visit

def answer (v : Visit σ α β) : β := (v.tap.run v.arg v.world).1

/-- The world that the tap leaves. -/
def left (v : Visit σ α β) : σ := (v.tap.run v.arg v.world).2

/-- The taps that the tap registers. -/
def registers (v : Visit σ α β) : List (Tap σ α β) := v.tap.adds v.arg v.world

end Visit

/-- What the visits of a call on taps are: in the order of the taps and
without a gap, up to the last tap or to the first answer that stops a call.
A tap sees what the answers before it make of the argument, and the world as
the tap before it left it. -/
structure RunsOn (stops : β → Bool) (next : α → β → α) (taps : List (Tap σ α β)) (arg : α)
    (world : σ) (visits : List (Visit σ α β)) (o : Outcome σ α β ρ) : Prop where
  inOrder : visits.map Visit.tap <+: taps
  goesOn : ∀ v ∈ visits.dropLast, stops v.answer = false
  ends : visits.map Visit.tap = taps ∨ ∃ v ∈ visits.getLast?, stops v.answer = true
  args : ∀ before v later, visits = before ++ v :: later →
    v.arg = (before.map Visit.answer).foldl next arg
  worlds : visits.map Visit.world ++ [o.world] = world :: visits.map Visit.left
  added : o.added = visits.flatMap Visit.registers

section RunsOn

variable {stops : β → Bool} {next : α → β → α} {taps : List (Tap σ α β)} {arg : α} {world : σ}
  {visits : List (Visit σ α β)} {v : Visit σ α β} {o : Outcome σ α β ρ}

/-- Without taps nothing runs. -/
theorem RunsOn.nil (result : ρ) : RunsOn stops next [] arg world [] ⟨result, [], world⟩ where
  inOrder := List.prefix_refl []
  goesOn _ h := nomatch h
  ends := Or.inl rfl
  args before _ _ h := by cases before <;> cases h
  worlds := rfl
  added := rfl

/-- An answer that stops the call is the last. -/
theorem RunsOn.last (h : stops v.answer = true) (taps : List (Tap σ α β)) (result : ρ) :
    RunsOn stops next (v.tap :: taps) v.arg v.world [v] ⟨result, v.registers, v.left⟩ where
  inOrder := ⟨taps, rfl⟩
  goesOn _ h := nomatch h
  ends := Or.inr ⟨v, rfl, h⟩
  args before v' later h := by
    cases before with
    | nil =>
      cases h
      rfl
    | cons first before => cases before <;> cases h
  worlds := rfl
  added := (List.append_nil _).symm

/-- After any other answer the rest of the taps runs on what it leaves. -/
theorem RunsOn.cons (hgo : stops v.answer = false)
    (h : RunsOn stops next taps (next v.arg v.answer) v.left visits o) :
    RunsOn stops next (v.tap :: taps) v.arg v.world (v :: visits)
      { o with added := v.registers ++ o.added } where
  inOrder := List.cons_prefix_cons.2 ⟨rfl, h.inOrder⟩
  goesOn v' hv' := by
    cases visits with
    | nil => cases hv'
    | cons second rest =>
      rcases List.mem_cons.1 hv' with rfl | hv'
      · exact hgo
      · exact h.goesOn v' hv'
  ends := by
    rcases h.ends with hall | ⟨v', hlast, hstops⟩
    · exact Or.inl (congrArg (v.tap :: ·) hall)
    · refine Or.inr ⟨v', ?_, hstops⟩
      cases visits with
      | nil => cases hlast
      | cons second rest => exact hlast
  args before v' later hsplit := by
    cases before with
    | nil =>
      cases hsplit
      rfl
    | cons first before =>
      obtain ⟨rfl, hrest⟩ := List.cons.inj hsplit
      exact h.args before v' later hrest
  worlds := congrArg (v.world :: ·) h.worlds
  added := congrArg (v.registers ++ ·) h.added

end RunsOn

/-! ## What the visits make of a call -/

/-- What a visited tap of a hook says is wrong, with the place filled in where
the tap does not name one. -/
def failureAt (hook : String) (v : Visit σ α β) (e : HookError) : HookError where
  hook := if e.hook = "" then hook else e.hook
  tap := if e.tap = "" then v.tap.name else e.tap
  message := e.message

/-- The value after an answer; an error leaves it as it is. -/
def valueAfter (value : τ) : Except HookError (Waterfall τ) → τ
  | .ok (.replace next) => next
  | _ => value

def nextWaterfall (arg : τ × γ) (answer : Except HookError (Waterfall τ)) : τ × γ :=
  (valueAfter arg.1 answer, arg.2)

def stopsWaterfall : Except HookError (Waterfall τ) → Bool
  | .error _ => true
  | .ok _ => false

/-- The value that went through all visits, or the error of the one that
failed. -/
structure WaterfallGives (hook : String) (seed : τ)
    (visits : List (Visit σ (τ × γ) (Except HookError (Waterfall τ))))
    (result : Except HookError τ) : Prop where
  value : (∀ v ∈ visits, stopsWaterfall v.answer = false) →
    result = .ok ((visits.map Visit.answer).foldl valueAfter seed)
  failure : ∀ v ∈ visits, ∀ e, v.answer = .error e → result = .error (failureAt hook v e)

def stopsBail : Except HookError (Option ρ) → Bool
  | .error _ => true
  | .ok result => result.isSome

/-- The result or the error that stopped the visits, if there was one. -/
structure BailGives (hook : String) (visits : List (Visit σ α (Except HookError (Option ρ))))
    (result : Except HookError (Option ρ)) : Prop where
  nothing : (∀ v ∈ visits, stopsBail v.answer = false) → result = .ok none
  found : ∀ v ∈ visits, ∀ r, v.answer = .ok (some r) → result = .ok (some r)
  failure : ∀ v ∈ visits, ∀ e, v.answer = .error e → result = .error (failureAt hook v e)

/-! ## Waterfalls -/

section Waterfall

variable {hook : String} {seed : τ}
  {taps : List (Tap σ (τ × γ) (Except HookError (Waterfall τ)))}
  {v : Visit σ (τ × γ) (Except HookError (Waterfall τ))}
  {visits : List (Visit σ (τ × γ) (Except HookError (Waterfall τ)))}

theorem runWaterfall_of_error {e : HookError} (h : v.answer = .error e) :
    runWaterfall hook (v.tap :: taps) v.arg.1 v.arg.2 v.world
      = ⟨.error (failureAt hook v e), v.registers, v.left⟩ := by
  have hrun : v.tap.run v.arg v.world = (.error e, v.left) := Prod.ext h rfl
  simp only [runWaterfall, hrun]
  rfl

theorem runWaterfall_of_ok {answer : Waterfall τ} (h : v.answer = .ok answer) :
    runWaterfall hook (v.tap :: taps) v.arg.1 v.arg.2 v.world
      = let o := runWaterfall hook taps (answer.over v.arg.1) v.arg.2 v.left
        { o with added := v.registers ++ o.added } := by
  have hrun : v.tap.run v.arg v.world = (.ok answer, v.left) := Prod.ext h rfl
  simp only [runWaterfall, hrun]
  rfl

theorem WaterfallGives.nil (hook : String) (seed : τ) :
    WaterfallGives hook seed ([] : List (Visit σ (τ × γ) _)) (.ok seed) where
  value _ := rfl
  failure _ h := nomatch h

theorem WaterfallGives.last {e : HookError} (h : v.answer = .error e) :
    WaterfallGives hook seed [v] (.error (failureAt hook v e)) where
  value hgo := by
    have := hgo v List.mem_cons_self
    rw [h] at this
    cases this
  failure v' hv' e' he' := by
    cases List.mem_singleton.1 hv'
    rw [h] at he'
    cases he'
    rfl

theorem WaterfallGives.cons {answer : Waterfall τ} {result : Except HookError τ}
    (h : v.answer = .ok answer) (hrest : WaterfallGives hook (answer.over seed) visits result) :
    WaterfallGives hook seed (v :: visits) result where
  value hgo := by
    have hnext : valueAfter seed v.answer = answer.over seed := by
      rw [h]
      cases answer <;> rfl
    rw [hrest.value fun v' hv' => hgo v' (List.mem_cons_of_mem v hv'), List.map_cons,
      List.foldl_cons, hnext]
  failure v' hv' e he := by
    rcases List.mem_cons.1 hv' with rfl | hv'
    · rw [h] at he
      cases he
    · exact hrest.failure v' hv' e he

/-- A waterfall visits taps up to the first error. -/
theorem runsOn_runWaterfall (hook : String)
    (taps : List (Tap σ (τ × γ) (Except HookError (Waterfall τ)))) (seed : τ) (args : γ)
    (world : σ) :
    ∃ visits, RunsOn stopsWaterfall nextWaterfall taps (seed, args) world visits
        (runWaterfall hook taps seed args world)
      ∧ WaterfallGives hook seed visits (runWaterfall hook taps seed args world).result := by
  -- Each tap runs on the value and the world that the ones before it left.
  induction taps generalizing seed world with
  | nil => exact ⟨[], .nil _, .nil hook seed⟩
  | cons t rest ih =>
    let v : Visit σ (τ × γ) (Except HookError (Waterfall τ)) := ⟨t, (seed, args), world⟩
    cases h : v.answer with
    | error e =>
      have hstops : stopsWaterfall v.answer = true := by rw [h]; rfl
      have hrun : runWaterfall hook (t :: rest) seed args world = _ := runWaterfall_of_error h
      rw [hrun]
      exact ⟨[v], .last hstops rest _, .last h⟩
    | ok answer =>
      have hrun : runWaterfall hook (t :: rest) seed args world = _ := runWaterfall_of_ok h
      have hgo : stopsWaterfall v.answer = false := by rw [h]; rfl
      have hnext : nextWaterfall v.arg v.answer = (answer.over seed, args) := by
        rw [h]
        cases answer <;> rfl
      obtain ⟨visits, hruns, hgives⟩ := ih (answer.over seed) v.left
      rw [hrun]
      exact ⟨v :: visits, .cons hgo (hnext ▸ hruns), hgives.cons h⟩

end Waterfall

/-! ## Bail -/

section Bail

variable {hook : String} {taps : List (Tap σ α (Except HookError (Option ρ)))}
  {v : Visit σ α (Except HookError (Option ρ))}
  {visits : List (Visit σ α (Except HookError (Option ρ)))}

theorem runBail_of_error {e : HookError} (h : v.answer = .error e) :
    runBail hook (v.tap :: taps) v.arg v.world
      = ⟨.error (failureAt hook v e), v.registers, v.left⟩ := by
  have hrun : v.tap.run v.arg v.world = (.error e, v.left) := Prod.ext h rfl
  simp only [runBail, hrun]
  rfl

theorem runBail_of_some {r : ρ} (h : v.answer = .ok (some r)) :
    runBail hook (v.tap :: taps) v.arg v.world = ⟨.ok (some r), v.registers, v.left⟩ := by
  have hrun : v.tap.run v.arg v.world = (.ok (some r), v.left) := Prod.ext h rfl
  simp only [runBail, hrun]
  rfl

theorem runBail_of_none (h : v.answer = .ok none) :
    runBail hook (v.tap :: taps) v.arg v.world
      = let o := runBail hook taps v.arg v.left
        { o with added := v.registers ++ o.added } := by
  have hrun : v.tap.run v.arg v.world = (.ok none, v.left) := Prod.ext h rfl
  simp only [runBail, hrun]
  rfl

theorem BailGives.nil (hook : String) :
    BailGives hook ([] : List (Visit σ α (Except HookError (Option ρ)))) (.ok none) where
  nothing _ := rfl
  found _ h := nomatch h
  failure _ h := nomatch h

theorem BailGives.failed {e : HookError} (h : v.answer = .error e) :
    BailGives hook [v] (.error (failureAt hook v e)) where
  nothing hgo := by
    have := hgo v List.mem_cons_self
    rw [h] at this
    cases this
  found v' hv' r hr := by
    cases List.mem_singleton.1 hv'
    rw [h] at hr
    cases hr
  failure v' hv' e' he' := by
    cases List.mem_singleton.1 hv'
    rw [h] at he'
    cases he'
    rfl

theorem BailGives.last {r : ρ} (h : v.answer = .ok (some r)) :
    BailGives hook [v] (.ok (some r)) where
  nothing hgo := by
    have := hgo v List.mem_cons_self
    rw [h] at this
    cases this
  found v' hv' r' hr' := by
    cases List.mem_singleton.1 hv'
    rw [h] at hr'
    cases hr'
    rfl
  failure v' hv' e he := by
    cases List.mem_singleton.1 hv'
    rw [h] at he
    cases he

theorem BailGives.cons {result : Except HookError (Option ρ)} (h : v.answer = .ok none)
    (hrest : BailGives hook visits result) : BailGives hook (v :: visits) result where
  nothing hgo := hrest.nothing fun v' hv' => hgo v' (List.mem_cons_of_mem v hv')
  found v' hv' r hr := by
    rcases List.mem_cons.1 hv' with rfl | hv'
    · rw [h] at hr
      cases hr
    · exact hrest.found v' hv' r hr
  failure v' hv' e he := by
    rcases List.mem_cons.1 hv' with rfl | hv'
    · rw [h] at he
      cases he
    · exact hrest.failure v' hv' e he

/-- A bail visits taps up to the first result or error. -/
theorem runsOn_runBail (hook : String) (taps : List (Tap σ α (Except HookError (Option ρ))))
    (arg : α) (world : σ) :
    ∃ visits, RunsOn stopsBail (fun arg _ => arg) taps arg world visits
        (runBail hook taps arg world)
      ∧ BailGives hook visits (runBail hook taps arg world).result := by
  induction taps generalizing world with
  | nil => exact ⟨[], .nil _, .nil hook⟩
  | cons t rest ih =>
    let v : Visit σ α (Except HookError (Option ρ)) := ⟨t, arg, world⟩
    cases h : v.answer with
    | error e =>
      have hstops : stopsBail v.answer = true := by rw [h]; rfl
      have hrun : runBail hook (t :: rest) arg world = _ := runBail_of_error h
      rw [hrun]
      exact ⟨[v], .last hstops rest _, .failed h⟩
    | ok answer =>
      cases answer with
      | some r =>
        have hstops : stopsBail v.answer = true := by rw [h]; rfl
        have hrun : runBail hook (t :: rest) arg world = _ := runBail_of_some h
        rw [hrun]
        exact ⟨[v], .last hstops rest _, .last h⟩
      | none =>
        have hgo : stopsBail v.answer = false := by rw [h]; rfl
        have hrun : runBail hook (t :: rest) arg world = _ := runBail_of_none h
        obtain ⟨visits, hruns, hgives⟩ := ih v.left
        rw [hrun]
        exact ⟨v :: visits, .cons hgo hruns, hgives.cons h⟩

end Bail

/-! ## Multicast -/

/-- A multicast visits all taps. -/
theorem runsOn_runMulticast (taps : List (Tap σ α Unit)) (arg : α) (world : σ) :
    ∃ visits, RunsOn (fun _ => false) (fun arg _ => arg) taps arg world visits
      (runMulticast taps arg world) := by
  induction taps generalizing world with
  | nil => exact ⟨[], .nil _⟩
  | cons t rest ih =>
    let v : Visit σ α Unit := ⟨t, arg, world⟩
    obtain ⟨visits, hruns⟩ := ih v.left
    have hall := RunsOn.cons (v := v) rfl hruns
    exact ⟨v :: visits, hall⟩

/-! ## The life of a hook -/

/-- Something that is done to a hook. -/
inductive Event (σ α β ρ : Type) where
  | tapped (t : Tap σ α β)
  | called (arg : α) (world : σ) (o : Outcome σ α β ρ)

/-- The taps that are registered by what is done, the oldest first. -/
def Event.registered : Event σ α β ρ → List (Tap σ α β)
  | tapped t => [t]
  | called _ _ o => o.added

/-- A hook after what was done to it since it was made, the oldest first. -/
inductive Life (call : Hook σ α β → α → σ → Outcome σ α β ρ) (name : String) :
    Hook σ α β → List (Event σ α β ρ) → Prop where
  | made : Life call name ⟨name, []⟩ []
  | tap {h : Hook σ α β} {events : List (Event σ α β ρ)} (earlier : Life call name h events)
    (t : Tap σ α β) : Life call name (h.tap t) (events ++ [.tapped t])
  | call {h : Hook σ α β} {events : List (Event σ α β ρ)} (earlier : Life call name h events)
    (arg : α) (world : σ) :
    Life call name (h.after (call h arg world)) (events ++ [.called arg world (call h arg world)])

/-- Whether every call in the life of a hook visits what was registered until
it began, and nothing else, and gives what its visits make. -/
def RunsOnSnapshots (call : Hook σ α β → α → σ → Outcome σ α β ρ) (stops : β → Bool)
    (next : α → β → α) (gives : String → α → List (Visit σ α β) → ρ → Prop) : Prop :=
  ∀ ⦃name : String⦄ ⦃h : Hook σ α β⦄ ⦃events before later : List (Event σ α β ρ)⦄ ⦃arg : α⦄
    ⦃world : σ⦄ ⦃o : Outcome σ α β ρ⦄,
    Life call name h events → events = before ++ .called arg world o :: later →
      ∃ visits, RunsOn stops next (before.flatMap Event.registered) arg world visits o
        ∧ gives name arg visits o.result

section Life

variable {call : Hook σ α β → α → σ → Outcome σ α β ρ} {name : String} {h : Hook σ α β}
  {events before later : List (Event σ α β ρ)}

/-- A hook holds all taps that were registered, the oldest first. -/
theorem Life.hook_eq (hlife : Life call name h events) :
    h = ⟨name, events.flatMap Event.registered⟩ := by
  induction hlife with
  | made => rfl
  | tap _ t ih =>
    rw [ih, List.flatMap_append, List.flatMap_singleton]
    rfl
  | call _ arg world ih =>
    subst ih
    rw [List.flatMap_append, List.flatMap_singleton]
    rfl

/-- What stands in a list with one more item stands at its end or before. -/
theorem concat_eq_append_cons {last event : Event σ α β ρ}
    (h : events ++ [last] = before ++ event :: later) :
    (events = before ∧ last = event) ∨ ∃ later', events = before ++ event :: later' := by
  rcases List.eq_nil_or_concat later with rfl | ⟨later', final, rfl⟩
  · obtain ⟨hevents, hlast⟩ := List.append_inj' h rfl
    exact Or.inl ⟨hevents, (List.cons.inj hlast).1⟩
  · rw [List.concat_eq_append, ← List.cons_append, ← List.append_assoc] at h
    exact Or.inr ⟨later', (List.append_inj' h rfl).1⟩

/-- A call is made on the taps that were registered until then. -/
theorem Life.outcome_eq (hlife : Life call name h events) {arg : α} {world : σ}
    {o : Outcome σ α β ρ} (hevents : events = before ++ .called arg world o :: later) :
    o = call ⟨name, before.flatMap Event.registered⟩ arg world := by
  -- A call in the middle was the last event of an earlier moment of the life.
  induction hlife generalizing later with
  | made => cases before <;> cases hevents
  | tap _ t ih =>
    rcases concat_eq_append_cons hevents with ⟨-, hlast⟩ | ⟨later', hearlier⟩
    · cases hlast
    · exact ih hearlier
  | call earlier arg world ih =>
    rcases concat_eq_append_cons hevents with ⟨rfl, hlast⟩ | ⟨later', hearlier⟩
    · cases hlast
      rw [earlier.hook_eq]
    · exact ih hearlier

/-- What one call does with the taps of a hook, all calls do with what was
registered before them. -/
theorem runsOnSnapshots_of_call {stops : β → Bool} {next : α → β → α}
    {gives : String → α → List (Visit σ α β) → ρ → Prop}
    (hcall : ∀ h arg world, ∃ visits, RunsOn stops next h.taps arg world visits (call h arg world)
      ∧ gives h.name arg visits (call h arg world).result) :
    RunsOnSnapshots call stops next gives := by
  intro name h events before later arg world o hlife hevents
  rw [hlife.outcome_eq hevents]
  exact hcall ⟨name, before.flatMap Event.registered⟩ arg world

end Life

/-- A waterfall on a seed with arguments. -/
def waterfallOn (h : Hook σ (τ × γ) (Except HookError (Waterfall τ))) (arg : τ × γ) (world : σ) :
    Outcome σ (τ × γ) (Except HookError (Waterfall τ)) (Except HookError τ) :=
  h.waterfall arg.1 arg.2 world

/-- Calls run on what was registered until they began: whatever was done to a
hook, a call visits just those taps, the oldest first, up to the first error
of a waterfall and the first error or result of a bail. What visited taps
register comes after all older taps, also if the call fails. A waterfall, whose
taps may suspend or not, gives the seed as the visits replaced it; a bail gives
the first result, if there is one; an error comes with its place. -/
theorem calls_run_on_snapshot :
    (∀ σ τ γ : Type, RunsOnSnapshots (waterfallOn : Hook σ (τ × γ) _ → _) stopsWaterfall
        nextWaterfall fun name arg => WaterfallGives name arg.1)
      ∧ (∀ σ α ρ : Type, RunsOnSnapshots (bail : Hook σ α (Except HookError (Option ρ)) → _)
        stopsBail (fun arg _ => arg) fun name _ => BailGives name)
      ∧ ∀ σ α : Type, RunsOnSnapshots (multicast : Hook σ α Unit → _) (fun _ => false)
        (fun arg _ => arg) fun _ _ _ _ => True := by
  refine ⟨fun σ τ γ => ?_, fun σ α ρ => ?_, fun σ α => ?_⟩
  · exact runsOnSnapshots_of_call fun h arg world =>
      runsOn_runWaterfall h.name h.taps arg.1 arg.2 world
  · exact runsOnSnapshots_of_call fun h arg world => runsOn_runBail h.name h.taps arg world
  · refine runsOnSnapshots_of_call fun h arg world => ?_
    obtain ⟨visits, hruns⟩ := runsOn_runMulticast h.taps arg world
    exact ⟨visits, hruns, trivial⟩

/-- A tap that fails, after it registered one more. -/
def innerTap : Tap (List String) (String × Unit) (Except HookError (Waterfall String)) :=
  .mk "inner" (fun _ world => (.error ⟨"", "", "no"⟩, world ++ ["inner"])) fun _ _ =>
    [.plain "innermost" fun _ world => (.ok .unchanged, world)]

/-- A tap that registers another one when it is first run. -/
def outerTap : Tap (List String) (String × Unit) (Except HookError (Waterfall String)) :=
  .mk "outer" (fun arg world => (.ok (.replace (arg.1 ++ "!")), world ++ ["outer"])) fun _ world =>
    if world = [] then [innerTap] else []

/-- A tap that gives an answer and registers one more. -/
def spawningTap {β : Type} (name : String) (answer : β) : Tap Nat Unit β :=
  .mk name (fun _ count => (answer, count + 1)) fun _ _ =>
    [.plain (name ++ " again") fun _ count => (answer, count + 1)]

theorem calls_run_on_snapshot_of_spawningTaps :
    (∃ h o o', Life waterfallOn "rename" h
        [.tapped outerTap, .called ("a", ()) [] o, .called ("a", ()) ["outer"] o']
      ∧ o.result = .ok "a!" ∧ o'.result = .error ⟨"rename", "inner", "no"⟩
      ∧ h.tapNames = ["outer", "inner", "innermost"]
      ∧ ∃ visits, RunsOn stopsWaterfall nextWaterfall [outerTap, innerTap] ("a", ()) ["outer"]
          visits o'
        ∧ WaterfallGives "rename" "a" visits o'.result)
    ∧ (∃ h o, Life bail "make" h [.tapped (spawningTap "x" (.ok (some 7))),
        .tapped (spawningTap "y" (.ok none)), .called () 0 o]
      ∧ o.result = .ok (some 7) ∧ h.tapNames = ["x", "y", "x again"]
      ∧ ∃ visits, RunsOn stopsBail (fun arg _ => arg)
          [spawningTap "x" (.ok (some 7)), spawningTap "y" (.ok none)] () 0 visits o
        ∧ BailGives "make" visits o.result)
    ∧ ∃ h o, Life multicast "seen" h [.tapped (spawningTap "x" ()), .called () 0 o]
      ∧ o.world = 1 ∧ h.tapNames = ["x", "x again"]
      ∧ ∃ visits,
        RunsOn (fun _ => false) (fun arg _ => arg) [spawningTap "x" ()] () 0 visits o := by
  refine ⟨?waterfall, ?bail, ?multicast⟩
  case waterfall =>
    have hmade : Life (waterfallOn : Hook (List String) (String × Unit) _ → _) "rename"
      ⟨"rename", []⟩ [] := .made
    have hlife := ((hmade.tap outerTap).call ("a", ()) []).call ("a", ()) ["outer"]
    exact ⟨_, _, _, hlife, by decide, by decide, by decide,
      calls_run_on_snapshot.1 _ _ _ hlife rfl⟩
  case bail =>
    have hmade : Life (bail : Hook Nat Unit (Except HookError (Option Nat)) → _) "make"
      ⟨"make", []⟩ [] := .made
    have hlife := ((hmade.tap (spawningTap "x" (.ok (some 7)))).tap
      (spawningTap "y" (.ok none))).call () 0
    exact ⟨_, _, hlife, by decide, by decide, calls_run_on_snapshot.2.1 _ _ _ hlife rfl⟩
  case multicast =>
    have hmade : Life (multicast : Hook Nat Unit Unit → _) "seen" ⟨"seen", []⟩ [] := .made
    have hlife := (hmade.tap (spawningTap "x" ())).call () 0
    obtain ⟨visits, hruns, -⟩ := calls_run_on_snapshot.2.2 _ _ hlife rfl
    exact ⟨_, _, hlife, by decide, by decide, visits, hruns⟩

end ImportChain.Hook
