/-
ImportChain.Factory.Create — modules for requests.

`create` gives the module remembered for the first dependency of a
request, if there is one, and does nothing else then. Otherwise the
request passes the outermost hooks, a factory function makes a module of
it, and the module is remembered for every dependency that the request
came with, provided the setup accepts it.

The default factory function asks the default resolver function, unless
hooks put others in their places, and passes the result through the hooks
around a module. A resolver function may also hand back a finished module,
which none of these hooks sees.
-/
import ImportChain.Factory.Basic

namespace ImportChain

variable {σ : Type}

/-! ## Resolver functions -/

/-- The parser for a type with options. -/
def Bench.parser (moduleType : String) (options : Option Json) :
    Action (Bench σ) (Shared Instance) := fun b =>
  let (result, parsers, world) := Registry.get moduleType options (b.parsers, b.world)
  (result, { b with parsers, world })

/-- The generator for a type with options. -/
def Bench.generator (moduleType : String) (options : Option Json) :
    Action (Bench σ) (Shared Instance) := fun b =>
  let (result, generators, world) := Registry.get moduleType options (b.generators, b.world)
  (result, { b with generators, world })

/-- The descriptor of a chain, with parser and generator. -/
def Bench.equip (r : ImportRequest) (c : Chain) : Action (Bench σ) ResolvedImport := do
  let parser ← Bench.parser c.moduleType (c.settings.get? "parser")
  let generator ← Bench.generator c.moduleType (c.settings.get? "generator")
  pure ⟨c.descriptor r parser generator, r.info, r.dependencies⟩

/-- Questions put to the delegate are recorded. -/
def Bench.record (calls : List Call) : Action (Bench σ) Unit := fun b =>
  (.ok (), { b with calls := b.calls ++ calls })

/-- The resolver function that hooks start from. -/
def defaultResolver (s : Setup) : ResolverFn σ := fun r => do
  Bench.record (s.resolveCalls r)
  match s.resolve r with
  | .error e => throw e
  | .ok (.ignored standIn) => pure (some (.module (.raw standIn)))
  | .ok (.chain c) => do
    let resolved ← Bench.equip r c
    pure (some (.data resolved))

/-! ## Factory functions -/

namespace Workshop

def inWorld (w : Workshop σ) (world : σ) : Workshop σ := { w with bench := { w.bench with world } }

def onBench {α : Type} (step : Action (Bench σ) α) : Action (Workshop σ) α := fun w =>
  let (result, bench) := step w.bench
  (result, { w with bench })

/-- The resolver function that the hook leaves. -/
def callResolver (seed : ResolverFn σ) : Action (Workshop σ) (Option (ResolverFn σ)) := fun w =>
  let o := w.resolver.waterfall (some seed) () w.bench.world
  (o.result.mapError .hook, { w.inWorld o.world with resolver := w.resolver.after o })

/-- What the hook leaves of resolved data. -/
def callAfterResolve (data : ResolvedImport) : Action (Workshop σ) (Option ResolvedImport) :=
  fun w =>
    let o := w.afterResolve.waterfall (some data) () w.bench.world
    (o.result.mapError .hook, { w.inWorld o.world with afterResolve := w.afterResolve.after o })

/-- The module that the hook makes of resolved data, if it does. -/
def callCreateModule (data : ResolvedImport) : Action (Workshop σ) (Option Module) := fun w =>
  let o := w.createModule.bail data w.bench.world
  (o.result.mapError .hook, { w.inWorld o.world with createModule := w.createModule.after o })

/-- The module that the hook leaves of a module. -/
def callModule (m : Module) (data : ResolvedImport) : Action (Workshop σ) Module := fun w =>
  let o := w.moduleHook.waterfall m data w.bench.world
  (o.result.mapError .hook, { w.inWorld o.world with moduleHook := w.moduleHook.after o })

def makeModule (data : ResolvedImport) : Action (Workshop σ) Module := do
  let created ← callCreateModule data
  match created with
  | some m => callModule m data
  | none =>
    if data.descriptor.request = "" then throw .emptyDependency
    else callModule (.normal data.descriptor) data

/-- What becomes of resolved data. -/
def finish (data : ResolvedImport) : Action (Workshop σ) (Option Module) := do
  match ← callAfterResolve data with
  | none => pure none
  | some data => do
    let m ← makeModule data
    pure (some m)

end Workshop

/-- The factory function that hooks start from. -/
def defaultFactory (s : Setup) : FactoryFn σ := fun r => do
  match ← Workshop.callResolver (defaultResolver s) with
  | none => pure none
  | some resolver =>
    match ← Workshop.onBench (resolver r) with
    | none => pure none
    | some (.module m) => pure (some m)
    | some (.data data) => Workshop.finish data

/-! ## Requests -/

namespace Factory

def inWorld (f : Factory σ) (world : σ) : Factory σ :=
  { f with workshop := f.workshop.inWorld world }

def inWorkshop {α : Type} (step : Action (Workshop σ) α) : Action (Factory σ) α := fun f =>
  let (result, workshop) := step f.workshop
  (result, { f with workshop })

/-- What the hook leaves of a request. -/
def callBeforeResolve (r : ImportRequest) : Action (Factory σ) (Option ImportRequest) := fun f =>
  let o := f.beforeResolve.waterfall (some r) () f.world
  (o.result.mapError .hook, { f.inWorld o.world with beforeResolve := f.beforeResolve.after o })

/-- The factory function that the hook leaves. -/
def callFactory (seed : FactoryFn σ) : Action (Factory σ) (Option (FactoryFn σ)) := fun f =>
  let o := f.factoryHook.waterfall (some seed) () f.world
  (o.result.mapError .hook, { f.inWorld o.world with factoryHook := f.factoryHook.after o })

/-- A request in the directory of the factory, if it has none of its own. -/
def placed (s : Setup) (r : ImportRequest) : ImportRequest :=
  if r.context = "" then { r with context := s.context } else r

/-- The module of a request that is not remembered. -/
def build (s : Setup) (r : ImportRequest) : Action (Factory σ) (Option Module) := do
  match ← callBeforeResolve (placed s r) with
  | none => pure none
  | some r =>
    match ← callFactory (defaultFactory s) with
    | none => pure none
    | some factory => inWorkshop (factory r)

/-- A module with an identity of its own. -/
def share (m : Module) : Action (Factory σ) (Shared Module) := fun f =>
  (.ok ⟨f.next, m⟩, { f with next := f.next + 1 })

/-- A module remembered for dependencies. -/
def remember (alive : Nat → Bool) (dependencies : List Dependency) (m : Shared Module) :
    Action (Factory σ) Unit := fun f =>
  (.ok (), { f with cache := dependencies.foldl (fun c d => c.insert alive d m) f.cache })

/-- The module of a request that is not remembered, remembered from now on if
the setup accepts it. -/
def createNew (s : FactorySetup) (alive : Nat → Bool) (r : ImportRequest) :
    Action (Factory σ) (Option (Shared Module)) := do
  match ← build s.toSetup r with
  | none => pure none
  | some m => do
    let m ← share m
    if s.accepts m.value then remember alive r.dependencies m
    pure (some m)

/-- The module of a request; nothing means that it is left out. -/
def create (s : FactorySetup) (alive : Nat → Bool) (r : ImportRequest) :
    Action (Factory σ) (Option (Shared Module)) :=
  match r.dependencies with
  | [] => throw .emptyDependency
  | first :: _ => fun f =>
    match f.cache.get? alive first with
    | some m => (.ok (some m), f)
    | none => createNew s alive r f

end Factory

end ImportChain
