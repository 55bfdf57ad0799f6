/-
ImportChain.Proofs.Schedule.Resolution — a request resolved in any order of
answers.

`Setup.resolving` is the resolution of a request as a process: the inline
loaders and the resource are sought at once, then, if all of them are
found, the loaders of the three positions (`outstanding_resolving`,
`outstanding_assembling`). A loader that is not found may be sought once
more with its suffix while others are still outstanding.

From left to right it comes to what the setup resolves the request to and
asks the same questions (`value_resolving`, `calls_resolving`).
`schedules_agree` is the main statement: any two complete schedules of the
default resolver end alike.
-/
import ImportChain.Proofs.Chain.Assembly
import ImportChain.Proofs.Loader.Seeking

namespace ImportChain

open Outcome

/-! ## Searches -/

/-- The search for a resource. -/
def seekResource (info : ContextInfo) (context resource : String) (options : Json) :
    Process (Except ResolutionError Resolution) :=
  if isVirtual resource then .done (.ok (.resolved resource none))
  else .ask (resourceCall info context resource options) .done

namespace Setup

/-- The search for all loaders of a list. -/
def seekLoaders (s : Setup) (info : ContextInfo) (context : String) (specs : List LoaderSpec) :
    Process (Except FactoryError (List ResolvedLoader)) :=
  ImportChain.seekLoaders s.rules info context loaderOptions specs

/-- The search for the loaders of all three positions, and the chain made of
them. -/
def assembling (s : Setup) (info : ContextInfo) (parsed : Request) (inline : List ResolvedLoader)
    (resource : String) (data : Option Json) : Process (Except FactoryError Chain) :=
  match s.bucketsFor parsed resource info with
  | .error e => pure (.error e)
  | .ok buckets =>
    .both (.both (s.seekLoaders info s.context buckets.post)
        (s.seekLoaders info s.context buckets.normal) fun post normal => pure (post, normal))
      (s.seekLoaders info s.context buckets.pre) fun (post, normal) pre => .done do
        let post ← post
        let normal ← normal
        let pre ← pre
        pure { loaders := post ++ inline ++ normal ++ pre, inline, resource, resourceData := data,
               settings := buckets.settings, parsed }

/-- The resolution of a request. -/
def resolving (s : Setup) (r : ImportRequest) : Process (Except FactoryError ChainResult) :=
  let parsed := Request.parse r.context r.request
  .both (s.seekLoaders r.info r.context parsed.loaders)
    (seekResource r.info r.context parsed.resource r.resolveOptions) fun
    | .error e, _ => pure (.error e)
    | .ok _, .error e => pure (.error (.resolution e))
    | .ok _, .ok .ignored => pure (.ok (.ignored (.ignored r.context r.request)))
    | .ok inline, .ok (.resolved resource data) => do
      let chain ← s.assembling r.info parsed inline resource data
      pure (chain.map .chain)

end Setup

/-! ## What is asked at once -/

theorem outstanding_seekResource (info : ContextInfo) (context resource : String)
    (options : Json) : (seekResource info context resource options).outstanding
      = resourceCalls info context resource options := by
  unfold seekResource resourceCalls
  split <;> rfl

namespace Setup

/-- All loaders of a list are asked about at once, if no reference leads
nowhere. -/
theorem outstanding_seekLoaders {s : Setup} (info : ContextInfo) (context : String)
    {specs found : List LoaderSpec} (h : specs.mapM (LoaderSpec.withOptions s.rules) = .ok found) :
    (s.seekLoaders info context specs).outstanding
      = found.map fun spec => loaderCall info context spec.identifier loaderOptions := by
  unfold seekLoaders ImportChain.seekLoaders
  rw [h, Process.outstanding_bind fun _ => rfl, Process.outstanding_all, List.flatMap_map]
  exact List.flatMap_pure_eq_map _ _

/-- The resource is asked about together with the inline loaders. -/
theorem outstanding_resolving (s : Setup) (r : ImportRequest) :
    (s.resolving r).outstanding
      = (s.seekLoaders r.info r.context (Request.parse r.context r.request).loaders).outstanding
        ++ resourceCalls r.info r.context (Request.parse r.context r.request).resource
          r.resolveOptions := by
  rw [← outstanding_seekResource]
  rfl

/-- The loaders of the three positions are asked about together. -/
theorem outstanding_assembling {s : Setup} {info : ContextInfo} {parsed : Request}
    {resource : String} {b : Buckets} (h : s.bucketsFor parsed resource info = .ok b)
    (inline : List ResolvedLoader) (data : Option Json) :
    (s.assembling info parsed inline resource data).outstanding
      = (s.seekLoaders info s.context b.post).outstanding
        ++ (s.seekLoaders info s.context b.normal).outstanding
        ++ (s.seekLoaders info s.context b.pre).outstanding := by
  unfold assembling
  rw [h]
  rfl

end Setup

/-! ## From left to right -/

section Sequential

variable (delegate : Delegate) (info : ContextInfo) (context : String) (options : Json)

theorem value_seekResource (resource : String) :
    (seekResource info context resource options).value delegate
      = resolveResource delegate info context resource options := by
  unfold seekResource resolveResource
  split <;> rfl

theorem calls_seekResource (resource : String) :
    (seekResource info context resource options).calls delegate
      = resourceCalls info context resource options := by
  unfold seekResource resourceCalls
  split <;> rfl

end Sequential

namespace Setup

variable (s : Setup) (info : ContextInfo)

theorem value_seekLoaders (context : String) (specs : List LoaderSpec) :
    (s.seekLoaders info context specs).value s.delegate = s.findLoaders info context specs :=
  ImportChain.value_seekLoaders s.delegate s.rules info context loaderOptions specs

theorem calls_seekLoaders (context : String) (specs : List LoaderSpec) :
    (s.seekLoaders info context specs).calls s.delegate = s.findLoadersCalls info context specs :=
  ImportChain.calls_seekLoaders s.delegate s.rules info context loaderOptions specs

theorem value_assembling (parsed : Request) (inline : List ResolvedLoader) (resource : String)
    (data : Option Json) :
    (s.assembling info parsed inline resource data).value s.delegate
      = s.assemble info parsed inline resource data := by
  unfold assembling assemble
  cases s.bucketsFor parsed resource info with
  | error e => rfl
  | ok buckets =>
    simp only [Process.value, Process.value_pure, value_seekLoaders]
    rfl

theorem calls_assembling (parsed : Request) (inline : List ResolvedLoader) (resource : String)
    (data : Option Json) :
    (s.assembling info parsed inline resource data).calls s.delegate
      = s.ruleCalls info parsed resource := by
  unfold assembling ruleCalls
  cases s.bucketsFor parsed resource info with
  | error e => rfl
  | ok buckets =>
    simp only [Process.calls, Process.calls_pure, calls_seekLoaders, List.append_nil]

theorem value_resolving (r : ImportRequest) :
    (s.resolving r).value s.delegate = s.resolve r := by
  unfold resolving resolve
  simp only [Process.value, value_seekLoaders, value_seekResource]
  cases s.findLoaders r.info r.context (Request.parse r.context r.request).loaders with
  | error e => rfl
  | ok inline =>
    cases resolveResource s.delegate r.info r.context (Request.parse r.context r.request).resource
      r.resolveOptions with
    | error e => rfl
    | ok found =>
      cases found with
      | ignored => rfl
      | resolved resource data =>
        simp only [Process.value_bind, Process.value_pure, value_assembling]
        rfl

theorem calls_resolving (r : ImportRequest) :
    (s.resolving r).calls s.delegate = s.resolveCalls r := by
  unfold resolving resolveCalls
  simp only [Process.calls, value_seekLoaders, value_seekResource, calls_seekLoaders,
    calls_seekResource]
  cases s.findLoaders r.info r.context (Request.parse r.context r.request).loaders with
  | error e => simp
  | ok inline =>
    cases resolveResource s.delegate r.info r.context (Request.parse r.context r.request).resource
      r.resolveOptions with
    | error e => simp
    | ok found =>
      cases found with
      | ignored => simp
      | resolved resource data =>
        simp only [Process.calls_bind, Process.calls_pure, calls_assembling, List.append_nil]

end Setup

/-! ## The default resolver -/

section Resolver

variable {σ : Type}

/-- What the default resolver makes of what a request leads to. -/
def Bench.give (r : ImportRequest) :
    Except FactoryError ChainResult → Action (Bench σ) (Option Resolved)
  | .error e => throw e
  | .ok (.ignored standIn) => pure (some (.module (.raw standIn)))
  | .ok (.chain c) => do
    let resolved ← Bench.equip r c
    pure (some (.data resolved))

/-- The default resolver as a process. Parser and generator come last, when
no question is outstanding. -/
def Setup.serving (s : Setup) (r : ImportRequest) (b : Bench σ) :
    Process (Except FactoryError (Option Resolved) × Bench σ) := do
  let found ← s.resolving r
  pure (Bench.give r found b)

/-- Whether a step neither sees nor changes what has been asked. -/
def Bench.Unasking {α : Type} (step : Action (Bench σ) α) : Prop :=
  ∀ (b : Bench σ) (calls : List Call),
    step { b with calls } = ((step b).1, { (step b).2 with calls })

theorem Bench.unasking_pure {α : Type} (a : α) : Unasking (pure a : Action (Bench σ) α) :=
  fun _ _ => rfl

theorem Bench.Unasking.bind {α β : Type} {x : Action (Bench σ) α} {f : α → Action (Bench σ) β}
    (hx : Unasking x) (hf : ∀ a, Unasking (f a)) : Unasking (x >>= f) := by
  intro b calls
  rw [Action.bind_apply, Action.bind_apply, hx b calls]
  cases x b with
  | mk result b' =>
    cases result with
    | error e => rfl
    | ok a => exact hf a b' calls

/-- Parser and generator do not depend on what has been asked. -/
theorem Bench.unasking_equip (r : ImportRequest) (c : Chain) :
    Unasking (equip r c : Action (Bench σ) ResolvedImport) :=
  Unasking.bind (fun _ _ => rfl) fun _ => Unasking.bind (fun _ _ => rfl) fun _ => unasking_pure _

theorem Bench.unasking_give (r : ImportRequest) :
    ∀ found, Unasking (give r found : Action (Bench σ) (Option Resolved))
  | .error _ => fun _ _ => rfl
  | .ok (.ignored _) => unasking_pure _
  | .ok (.chain c) => (unasking_equip r c).bind fun _ => unasking_pure _

theorem defaultResolver_eq_give (s : Setup) (r : ImportRequest) (b : Bench σ) :
    defaultResolver s r b = Bench.give r (s.resolve r) (b.asked s r) := by
  cases hs : s.resolve r with
  | error e => exact defaultResolver_of_error hs b
  | ok result =>
    cases result with
    | ignored standIn => exact defaultResolver_of_ignored hs b
    | chain c =>
      unfold defaultResolver
      rw [hs]
      rfl

/-- Any two complete schedules of the default resolver come to the same
result and the same bench and ask the same questions, each as often, and
that is what the resolver gives when it asks from left to right; and there
is a complete schedule. -/
theorem schedules_agree (s : Setup) (r : ImportRequest) (b : Bench σ) :
    (∃ asked o, Process.Run s.delegate (s.serving r b) asked o)
    ∧ ∀ asked asked' o o', Process.Run s.delegate (s.serving r b) asked o →
      Process.Run s.delegate (s.serving r b) asked' o' →
        o = o' ∧ asked.Perm asked'
        ∧ defaultResolver s r b = (o.1, { o.2 with calls := b.calls ++ s.resolveCalls r })
        ∧ asked.Perm (s.resolveCalls r) := by
  have hvalue : (s.serving r b).value s.delegate = Bench.give r (s.resolve r) b := by
    unfold Setup.serving
    rw [Process.value_bind, Process.value_pure, Setup.value_resolving]
  have hcalls : (s.serving r b).calls s.delegate = s.resolveCalls r := by
    unfold Setup.serving
    rw [Process.calls_bind, Process.calls_pure, Setup.calls_resolving, List.append_nil]
  refine ⟨Process.exists_run s.delegate _, fun asked asked' o o' h h' => ?_⟩
  have ho : o = Bench.give r (s.resolve r) b := h.value_eq.trans hvalue
  have hasked : asked.Perm (s.resolveCalls r) := hcalls ▸ h.calls_perm
  have hasked' : asked'.Perm (s.resolveCalls r) := hcalls ▸ h'.calls_perm
  refine ⟨h.value_eq.trans h'.value_eq.symm, hasked.trans hasked'.symm, ?_, hasked⟩
  rw [defaultResolver_eq_give, ho]
  exact Bench.unasking_give r _ b _

/-- Everything is found below the directory that it is sought from, but the
loader `a` only under its name with the suffix. -/
def suffixedSetup : Setup :=
  { context := "/app", rules := .empty
    delegate := fun call =>
      if call.request = "a" then .error ⟨call.request, call.context, "not found"⟩
      else .ok (.resolved (call.context ++ "/" ++ call.request) none) }

def suffixedRequest : ImportRequest :=
  { context := "/app", request := "a!b!./c.js", dependencies := [] }

/-- The resource may be answered for first, or the loader that fails: in
either case that loader is sought again and its failure explained. -/
theorem schedules_agree_on_suffixedRequest :
    ∃ asked asked' o o',
      Process.Run suffixedSetup.delegate (suffixedSetup.serving suffixedRequest builtinBench)
        (resourceCall {} "/app" "./c.js" .empty :: asked) o
      ∧ Process.Run suffixedSetup.delegate (suffixedSetup.serving suffixedRequest builtinBench)
        (loaderCall {} "/app" "a" .empty :: asked') o'
      ∧ o = o'
      ∧ failure? o.1
        = some (.resolution ⟨"a", "/app", "not found" ++ "\n" ++ suffixHint "a"⟩)
      ∧ (resourceCall {} "/app" "./c.js" .empty :: asked).Perm
        (loaderCall {} "/app" "a" .empty :: asked')
      ∧ (resourceCall {} "/app" "./c.js" .empty :: asked).Perm
        [loaderCall {} "/app" "a" .empty, loaderCall {} "/app" "a-loader" .empty,
          loaderCall {} "/app" "b" .empty, resourceCall {} "/app" "./c.js" .empty] := by
  have hout : (suffixedSetup.serving suffixedRequest builtinBench).outstanding
      = [loaderCall {} "/app" "a" .empty, loaderCall {} "/app" "b" .empty,
        resourceCall {} "/app" "./c.js" .empty] := by
    decide +kernel
  obtain ⟨asked, o, hrun⟩ : ∃ asked o, Process.Run suffixedSetup.delegate
      (suffixedSetup.serving suffixedRequest builtinBench)
      (resourceCall {} "/app" "./c.js" .empty :: asked) o :=
    Process.exists_run_of_mem_outstanding (by rw [hout]; simp)
  obtain ⟨asked', o', hrun'⟩ : ∃ asked' o', Process.Run suffixedSetup.delegate
      (suffixedSetup.serving suffixedRequest builtinBench)
      (loaderCall {} "/app" "a" .empty :: asked') o' :=
    Process.exists_run_of_mem_outstanding (by rw [hout]; simp)
  obtain ⟨ho, hperm, hgives, hasked⟩ :=
    (schedules_agree suffixedSetup suffixedRequest builtinBench).2 _ _ _ _ hrun hrun'
  refine ⟨asked, asked', o, o', hrun, hrun', ho, ?_, hperm, ?_⟩
  · have hfails : failure? (defaultResolver suffixedSetup suffixedRequest builtinBench).1
        = some (.resolution ⟨"a", "/app", "not found" ++ "\n" ++ suffixHint "a"⟩) := by
      decide +kernel
    rwa [hgives] at hfails
  · have hcalls : suffixedSetup.resolveCalls suffixedRequest
        = [loaderCall {} "/app" "a" .empty, loaderCall {} "/app" "a-loader" .empty,
          loaderCall {} "/app" "b" .empty, resourceCall {} "/app" "./c.js" .empty] := by
      decide +kernel
    rwa [hcalls] at hasked

end Resolver

end ImportChain
