/-
ImportChain.Proofs.Schedule.Process — work that waits for answers, several
of them at a time.

A `Process` is finished, or waits for the answer to a question, or has two
processes at work and goes on when both are finished. Any question that is
outstanding may be answered next (`Step`); a schedule is complete when the
process is finished (`Run`).

`value` and `calls` are what a process comes to, and asks on the way, when
its questions are answered from left to right. A step changes neither,
up to the order of the questions (`value_eq_of_step`, `calls_perm_of_step`),
so that no schedule can tell (`Run.value_eq`, `Run.calls_perm`). Every
process has a complete schedule, and none has an endless one, because all
steps of it are counted beforehand (`exists_run`, `steps_eq_of_step`).
-/
import ImportChain.Delegate
import Mathlib.Data.List.Perm.Basic

namespace ImportChain

open scoped List

/-- Work that ends with a value and puts questions to a delegate. -/
inductive Process : Type → Type 1 where
  | done {α : Type} (value : α) : Process α
  | ask {α : Type} (call : Call) (next : Except ResolutionError Resolution → Process α) :
    Process α
  /-- Two at once, and what follows when both are finished. -/
  | both {α β γ : Type} (p : Process α) (q : Process β) (next : α → β → Process γ) : Process γ

namespace Process

variable {α β γ : Type} {delegate : Delegate}

/-! ## Combining -/

/-- One process after the other. -/
def andThen : {α : Type} → Process α → (α → Process β) → Process β
  | _, done a, f => f a
  | _, ask call next, f => ask call fun answer => (next answer).andThen f
  | _, both p q next, f => both p q fun a b => (next a b).andThen f

instance : Monad Process where
  pure := done
  bind := andThen

/-- All processes of a list at once; their values in the order of the list. -/
def all : List (Process α) → Process (List α)
  | [] => done []
  | p :: ps => both p (all ps) fun a as => done (a :: as)

/-! ## Steps -/

/-- The questions that wait for an answer. -/
def outstanding : {α : Type} → Process α → List Call
  | _, done _ => []
  | _, ask call _ => [call]
  | _, both p q _ => p.outstanding ++ q.outstanding

/-- One question is answered, or two processes that are finished meet; with
the questions answered in the step. -/
inductive Step (delegate : Delegate) : {α : Type} → Process α → List Call → Process α → Prop where
  | answer {α : Type} (call : Call) (next : Except ResolutionError Resolution → Process α) :
    Step delegate (ask call next) [call] (next (delegate call))
  | left {α β γ : Type} {p p' : Process α} {calls : List Call} (h : Step delegate p calls p')
    (q : Process β) (next : α → β → Process γ) :
    Step delegate (both p q next) calls (both p' q next)
  | right {α β γ : Type} {q q' : Process β} {calls : List Call} (p : Process α)
    (h : Step delegate q calls q') (next : α → β → Process γ) :
    Step delegate (both p q next) calls (both p q' next)
  | meet {α β γ : Type} (a : α) (b : β) (next : α → β → Process γ) :
    Step delegate (both (done a) (done b) next) [] (next a b)

/-- A schedule to the end: the questions in the order of their answers, and
the value. -/
inductive Run (delegate : Delegate) : {α : Type} → Process α → List Call → α → Prop where
  | done {α : Type} (a : α) : Run delegate (done a) [] a
  | step {α : Type} {p q : Process α} {calls rest : List Call} {a : α}
    (h : Step delegate p calls q) (hrun : Run delegate q rest a) :
    Run delegate p (calls ++ rest) a

/-- Whichever question is outstanding may be answered next. -/
theorem exists_step_of_mem_outstanding (delegate : Delegate) {call : Call} :
    ∀ {α : Type} {p : Process α}, call ∈ p.outstanding → ∃ q, Step delegate p [call] q
  | _, done _, h => by cases h
  | _, ask asked next, h => by
      rw [List.mem_singleton.1 h]
      exact ⟨_, .answer asked next⟩
  | _, both p q next, h => by
      rcases List.mem_append.1 h with h | h
      · obtain ⟨p', hp⟩ := exists_step_of_mem_outstanding delegate h
        exact ⟨_, .left hp q next⟩
      · obtain ⟨q', hq⟩ := exists_step_of_mem_outstanding delegate h
        exact ⟨_, .right p hq next⟩

/-! ## From left to right -/

/-- What a process comes to. -/
def value (delegate : Delegate) : {α : Type} → Process α → α
  | _, done a => a
  | _, ask call next => (next (delegate call)).value delegate
  | _, both p q next => (next (p.value delegate) (q.value delegate)).value delegate

/-- The questions of a process, from left to right. -/
def calls (delegate : Delegate) : {α : Type} → Process α → List Call
  | _, done _ => []
  | _, ask call next => call :: (next (delegate call)).calls delegate
  | _, both p q next =>
    p.calls delegate ++ q.calls delegate
      ++ (next (p.value delegate) (q.value delegate)).calls delegate

/-- How many steps a process takes. -/
def steps (delegate : Delegate) : {α : Type} → Process α → Nat
  | _, done _ => 0
  | _, ask call next => (next (delegate call)).steps delegate + 1
  | _, both p q next =>
    p.steps delegate + q.steps delegate
      + (next (p.value delegate) (q.value delegate)).steps delegate + 1

@[simp] theorem value_pure (a : α) : (pure a : Process α).value delegate = a := rfl

@[simp] theorem calls_pure (a : α) : (pure a : Process α).calls delegate = [] := rfl

@[simp] theorem value_bind : ∀ {α : Type} (p : Process α) (f : α → Process β),
    (p >>= f).value delegate = (f (p.value delegate)).value delegate
  | _, done _, _ => rfl
  | _, ask call next, f => value_bind (next (delegate call)) f
  | _, both p q next, f => value_bind (next (p.value delegate) (q.value delegate)) f

@[simp] theorem calls_bind : ∀ {α : Type} (p : Process α) (f : α → Process β),
    (p >>= f).calls delegate = p.calls delegate ++ (f (p.value delegate)).calls delegate
  | _, done _, _ => rfl
  | _, ask call next, f => by
      show call :: (next (delegate call) >>= f).calls delegate = _
      rw [calls_bind (next (delegate call)) f]
      rfl
  | _, both p q next, f => by
      show p.calls delegate ++ q.calls delegate
        ++ (next (p.value delegate) (q.value delegate) >>= f).calls delegate = _
      rw [calls_bind, ← List.append_assoc]
      rfl

theorem value_all : ∀ ps : List (Process α),
    (all ps).value delegate = ps.map (value delegate)
  | [] => rfl
  | p :: ps => by
      rw [List.map_cons, ← value_all ps]
      rfl

theorem calls_all : ∀ ps : List (Process α),
    (all ps).calls delegate = ps.flatMap (calls delegate)
  | [] => rfl
  | p :: ps => by
      rw [List.flatMap_cons, ← calls_all ps]
      exact List.append_nil _

/-- What waits does not depend on what follows, unless that waits already. -/
theorem outstanding_bind {f : α → Process β} (hf : ∀ a, (f a).outstanding = []) :
    ∀ p : Process α, (p >>= f).outstanding = p.outstanding
  | done a => hf a
  | ask _ _ => rfl
  | both _ _ _ => rfl

theorem outstanding_all : ∀ ps : List (Process α), (all ps).outstanding = ps.flatMap outstanding
  | [] => rfl
  | p :: ps => by
      rw [List.flatMap_cons, ← outstanding_all ps]
      rfl

/-! ## What a step changes -/

variable {p q : Process α} {asked : List Call}

theorem value_eq_of_step (h : Step delegate p asked q) : q.value delegate = p.value delegate := by
  induction h with
  | answer call next => rfl
  | left _ q next ih => simp only [value, ih]
  | right p _ next ih => simp only [value, ih]
  | meet a b next => rfl

theorem calls_perm_of_step (h : Step delegate p asked q) :
    (asked ++ q.calls delegate).Perm (p.calls delegate) := by
  induction h with
  | answer call next => exact List.Perm.refl _
  | left hp q next ih =>
    simp only [calls, value_eq_of_step hp, ← List.append_assoc]
    exact (ih.append_right _).append_right _
  | @right _ _ _ q q' asked p hq next ih =>
    simp only [calls, value_eq_of_step hq, ← List.append_assoc]
    refine List.Perm.append_right _ ?_
    calc asked ++ p.calls delegate ++ q'.calls delegate
        _ = asked ++ (p.calls delegate ++ q'.calls delegate) := List.append_assoc _ _ _
        _ ~ p.calls delegate ++ (asked ++ q'.calls delegate) := by
          simpa only [List.append_assoc] using
            List.Perm.append_right (q'.calls delegate)
              (List.perm_append_comm : (asked ++ p.calls delegate) ~ (p.calls delegate ++ asked))
        _ ~ p.calls delegate ++ q.calls delegate := ih.append_left _
  | meet a b next => exact List.Perm.refl _

/-- Each step is one of those counted beforehand. -/
theorem steps_eq_of_step (h : Step delegate p asked q) :
    p.steps delegate = q.steps delegate + 1 := by
  induction h with
  | answer call next => rfl
  | left hp q next ih =>
    simp only [steps, value_eq_of_step hp, ih]
    omega
  | right p hq next ih =>
    simp only [steps, value_eq_of_step hq, ih]
    omega
  | meet a b next => simp [steps, value]

/-- A process that is not finished can take a step. -/
theorem eq_done_or_exists_step (delegate : Delegate) : ∀ {α : Type} (p : Process α),
    (∃ a, p = done a) ∨ ∃ asked q, Step delegate p asked q
  | _, done a => Or.inl ⟨a, rfl⟩
  | _, ask call next => Or.inr ⟨_, _, .answer call next⟩
  | _, both p q next => by
      right
      rcases eq_done_or_exists_step delegate p with ⟨a, rfl⟩ | ⟨asked, p', hp⟩
      · rcases eq_done_or_exists_step delegate q with ⟨b, rfl⟩ | ⟨asked, q', hq⟩
        · exact ⟨_, _, .meet a b next⟩
        · exact ⟨_, _, .right _ hq next⟩
      · exact ⟨_, _, .left hp q next⟩

/-! ## Complete schedules -/

/-- Wherever a schedule stands, it can be completed. -/
theorem exists_run (delegate : Delegate) (p : Process α) : ∃ asked a, Run delegate p asked a := by
  induction hn : p.steps delegate generalizing p with
  | zero =>
    rcases eq_done_or_exists_step delegate p with ⟨a, rfl⟩ | ⟨asked, q, hstep⟩
    · exact ⟨[], a, .done a⟩
    · have := steps_eq_of_step hstep
      omega
  | succ n ih =>
    rcases eq_done_or_exists_step delegate p with ⟨a, rfl⟩ | ⟨asked, q, hstep⟩
    · exact ⟨[], a, .done a⟩
    · have hsteps := steps_eq_of_step hstep
      obtain ⟨rest, a, hrun⟩ := ih q (by omega)
      exact ⟨_, a, .step hstep hrun⟩

/-- Whichever question is outstanding may be the first to be answered. -/
theorem exists_run_of_mem_outstanding {call : Call} (h : call ∈ p.outstanding) :
    ∃ asked a, Run delegate p (call :: asked) a := by
  obtain ⟨q, hstep⟩ := exists_step_of_mem_outstanding delegate h
  obtain ⟨rest, a, hrun⟩ := exists_run delegate q
  exact ⟨rest, a, .step hstep hrun⟩

theorem Run.value_eq {a : α} (h : Run delegate p asked a) : a = p.value delegate := by
  induction h with
  | done a => rfl
  | step hstep _ ih => rw [ih, value_eq_of_step hstep]

theorem Run.calls_perm {a : α} (h : Run delegate p asked a) : asked.Perm (p.calls delegate) := by
  induction h with
  | done a => exact List.Perm.refl _
  | step hstep _ ih => exact (ih.append_left _).trans (calls_perm_of_step hstep)

end Process

end ImportChain
