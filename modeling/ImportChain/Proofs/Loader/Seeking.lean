/-
ImportChain.Proofs.Loader.Seeking — the search for loaders as a process.

`seekLoaders` says what is asked, and what becomes of the answers, without
knowing who answers: references are looked up first, then all loaders are
sought at once, and one that is not found may be sought once more with its
suffix.

From left to right it comes to what `resolveLoaders` gives and asks what
`loadersCalls` lists (`value_seekLoaders`, `calls_seekLoaders`), so that
every complete schedule does, up to the order of the questions
(`run_seekLoaders`).
-/
import ImportChain.Loader
import ImportChain.Proofs.Schedule.Process

namespace ImportChain

/-! ## Searches -/

/-- The search for a loader under its name with the suffix, after one under
its name has failed. -/
def seekSuffixed (info : ContextInfo) (context name : String) (options : Json)
    (error : ResolutionError) : Process (Except ResolutionError ResolvedLoader) :=
  .ask (loaderCall info context (name ++ loaderSuffix) options) fun answer =>
    .done (.error (if isResolved answer then
      { error with message := error.message ++ "\n" ++ suffixHint name } else error))

/-- The search for a loader. -/
def seekLoader (info : ContextInfo) (context : String) (options : Json) (spec : LoaderSpec) :
    Process (Except ResolutionError ResolvedLoader) :=
  .ask (loaderCall info context spec.identifier options) fun
    | .ok (.resolved place _) => .done (.ok (spec.resolvedTo place))
    | .ok .ignored => .done (.error ⟨spec.identifier, context, ignoredLoaderMessage⟩)
    | .error e =>
      if mayLackSuffix spec.identifier then seekSuffixed info context spec.identifier options e
      else .done (.error e)

/-- The search for all loaders of a list. References are looked up before it
begins. -/
def seekLoaders (rules : RuleSet) (info : ContextInfo) (context : String) (options : Json)
    (specs : List LoaderSpec) : Process (Except FactoryError (List ResolvedLoader)) :=
  match specs.mapM (LoaderSpec.withOptions rules) with
  | .error e => pure (.error e)
  | .ok specs => do
    let results ← Process.all (specs.map (seekLoader info context options))
    pure ((results.mapM id).mapError .resolution)

/-! ## From left to right -/

section Sequential

variable (delegate : Delegate) (rules : RuleSet) (info : ContextInfo) (context : String)
  (options : Json)

theorem value_seekLoader (spec : LoaderSpec) :
    (seekLoader info context options spec).value delegate
      = resolveLoader delegate info context options spec := by
  unfold seekLoader resolveLoader
  rw [Process.value]
  cases delegate (loaderCall info context spec.identifier options) with
  | ok answer => cases answer <;> rfl
  | error e =>
    unfold withSuffixHint
    by_cases hlack : mayLackSuffix spec.identifier = true
    · simp only [hlack, if_true, Bool.true_and]
      rw [seekSuffixed, Process.value, Process.value]
    · simp only [hlack, Bool.false_and, Bool.false_eq_true, if_false]
      rw [Process.value]

theorem calls_seekLoader (spec : LoaderSpec) :
    (seekLoader info context options spec).calls delegate
      = loaderCalls delegate info context options spec := by
  unfold seekLoader loaderCalls
  rw [Process.calls]
  cases hanswer : delegate (loaderCall info context spec.identifier options) with
  | ok answer =>
    simp only [hanswer]
    cases answer <;> rfl
  | error e =>
    by_cases hlack : mayLackSuffix spec.identifier = true
    · simp only [hanswer, hlack, if_true]
      rfl
    · simp only [hanswer, hlack, Bool.false_eq_true, if_false]
      rfl

theorem value_seekLoaders (specs : List LoaderSpec) :
    (seekLoaders rules info context options specs).value delegate
      = resolveLoaders delegate rules info context options specs := by
  unfold seekLoaders resolveLoaders
  cases specs.mapM (LoaderSpec.withOptions rules) with
  | error e => rfl
  | ok specs =>
    have hall : (specs.map (seekLoader info context options)).map (Process.value delegate)
        = specs.map (resolveLoader delegate info context options) := by
      rw [List.map_map]
      exact List.map_congr_left fun spec _ => value_seekLoader _ _ _ _ spec
    simp only [Process.value_bind, Process.value_pure, Process.value_all, hall, List.mapM_map]
    rfl

theorem calls_seekLoaders (specs : List LoaderSpec) :
    (seekLoaders rules info context options specs).calls delegate
      = loadersCalls delegate rules info context options specs := by
  unfold seekLoaders loadersCalls
  cases specs.mapM (LoaderSpec.withOptions rules) with
  | error e => rfl
  | ok specs =>
    simp only [Process.calls_bind, Process.calls_pure, Process.calls_all, List.append_nil,
      List.flatMap_map, calls_seekLoader]

end Sequential

/-- In whatever order the answers come, the search ends as if they came from
left to right, and has asked the same questions. -/
theorem run_seekLoaders {delegate : Delegate} {rules : RuleSet} {info : ContextInfo}
    {context : String} {options : Json} {specs : List LoaderSpec} {asked : List Call}
    {outcome : Except FactoryError (List ResolvedLoader)}
    (h : Process.Run delegate (seekLoaders rules info context options specs) asked outcome) :
    outcome = resolveLoaders delegate rules info context options specs
      ∧ asked.Perm (loadersCalls delegate rules info context options specs) :=
  ⟨h.value_eq.trans (value_seekLoaders delegate rules info context options specs),
    calls_seekLoaders delegate rules info context options specs ▸ h.calls_perm⟩

end ImportChain
