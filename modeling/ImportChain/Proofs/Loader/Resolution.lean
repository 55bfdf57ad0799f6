/-
ImportChain.Proofs.Loader.Resolution — what looking for a list of loaders
gives.

`resolveLoaders_eq_ok_iff`: it gives loaders exactly if each one resolves,
to the loader in its place (`ResolvesTo`). `failure?_resolveLoaders`: else
it fails as the earliest reference that leads nowhere, or, if there is
none, as the earliest loader that is not found.
-/
import ImportChain.Loader
import ImportChain.Proofs.Outcome

namespace ImportChain

open Outcome

variable {delegate : Delegate} {rules : RuleSet} {info : ContextInfo} {context : String}
  {options : Json}

namespace LoaderSpec

/-! ## One loader -/

/-- The options that a loader is given: its own, or those that it refers to.
A reference may lead nowhere. -/
def givenOptions (rules : RuleSet) (spec : LoaderSpec) : Option LoaderOptions :=
  match spec.options, spec.ident with
  | .absent, some ident => (rules.options? ident).map .structured
  | options, _ => some options

/-- Whether a loader is found from a directory as a given one. The query of
the place where it is counts only if it is given no options. -/
def ResolvesTo (delegate : Delegate) (rules : RuleSet) (info : ContextInfo) (context : String)
    (options : Json) (spec : LoaderSpec) (loader : ResolvedLoader) : Prop :=
  ∃ place data given,
    delegate ⟨.loader, info, context, spec.identifier, options⟩ = .ok (.resolved place data)
    ∧ spec.givenOptions rules = some given
    ∧ loader.path = (Request.splitQuery place).1
    ∧ loader.options = (if given.isSome then given else .ofQuery (Request.splitQuery place).2)
    ∧ loader.ident = spec.ident

/-- The failure of a reference that leads nowhere. -/
def lookupFailure? (rules : RuleSet) (spec : LoaderSpec) : Option FactoryError :=
  match spec.options, spec.ident with
  | .absent, some ident =>
    if rules.options? ident = none then some (.optionLookup ident) else none
  | _, _ => none

/-- The failure of a loader that the delegate does not find. -/
def searchFailure? (delegate : Delegate) (info : ContextInfo) (context : String)
    (options : Json) (spec : LoaderSpec) : Option FactoryError :=
  match delegate ⟨.loader, info, context, spec.identifier, options⟩ with
  | .ok (.resolved _ _) => none
  | .ok .ignored => some (.resolution ⟨spec.identifier, context, ignoredLoaderMessage⟩)
  | .error e =>
    some (.resolution (withSuffixHint delegate info context spec.identifier options e))

/-- A loader keeps all but its options when these are looked up. -/
theorem withOptions_eq_ok_iff {spec found : LoaderSpec} :
    spec.withOptions rules = .ok found
      ↔ ∃ given, spec.givenOptions rules = some given ∧ found = { spec with options := given } := by
  obtain ⟨name, opts, ident⟩ := spec
  unfold withOptions needsLookup givenOptions
  cases opts with
  | absent =>
    cases ident with
    | none => simp [eq_comm]
    | some ident =>
      show (rules.findOptions ident >>= _) = _ ↔ _
      rw [bind_eq_ok_iff]
      unfold RuleSet.findOptions
      cases hf : rules.options? ident with
      | none => simp [hf]
      | some fields => simp [hf, pure, Except.pure, eq_comm]
  | inline query => cases ident <;> simp [LoaderOptions.isSome, eq_comm]
  | structured fields => cases ident <;> simp [LoaderOptions.isSome, eq_comm]

theorem failure?_withOptions (spec : LoaderSpec) :
    failure? (spec.withOptions rules) = spec.lookupFailure? rules := by
  obtain ⟨name, opts, ident⟩ := spec
  unfold withOptions needsLookup lookupFailure?
  cases opts with
  | absent =>
    cases ident with
    | none => rfl
    | some ident =>
      simp only [LoaderOptions.isSome, Option.isSome_some, Bool.not_false, Bool.and_self]
      rw [failure?_bind]
      unfold RuleSet.findOptions
      cases rules.options? ident <;> rfl
  | inline query => cases ident <;> rfl
  | structured fields => cases ident <;> rfl

theorem failure?_resolveLoader (spec : LoaderSpec) :
    (failure? (resolveLoader delegate info context options spec)).map .resolution
      = spec.searchFailure? delegate info context options := by
  unfold resolveLoader searchFailure? loaderCall
  cases delegate ⟨.loader, info, context, spec.identifier, options⟩ with
  | error e => rfl
  | ok answer => cases answer <;> rfl

/-- A loader is found with its options if they are found and the delegate
finds the loader. -/
theorem exists_withOptions_iff_resolvesTo {spec : LoaderSpec} {loader : ResolvedLoader} :
    (∃ found, spec.withOptions rules = .ok found
        ∧ resolveLoader delegate info context options found = .ok loader)
      ↔ spec.ResolvesTo delegate rules info context options loader := by
  have hresolve : ∀ found : LoaderSpec,
      resolveLoader delegate info context options found = .ok loader
        ↔ ∃ place data, delegate ⟨.loader, info, context, found.identifier, options⟩
            = .ok (.resolved place data) ∧ found.resolvedTo place = loader := by
    intro found
    unfold resolveLoader loaderCall
    cases delegate ⟨.loader, info, context, found.identifier, options⟩ with
    | error e => simp
    | ok answer => cases answer <;> simp
  unfold ResolvesTo
  simp only [hresolve, withOptions_eq_ok_iff]
  constructor
  · rintro ⟨_, ⟨given, hgiven, rfl⟩, place, data, hcall, rfl⟩
    exact ⟨place, data, given, hcall, hgiven, rfl, rfl, rfl⟩
  · rintro ⟨place, data, given, hcall, hgiven, hpath, hoptions, hident⟩
    refine ⟨_, ⟨given, hgiven, rfl⟩, place, data, hcall, ?_⟩
    obtain ⟨path, opts, ident⟩ := loader
    simp only at hpath hoptions hident
    subst hpath hoptions hident
    rfl

end LoaderSpec

/-! ## Lists of loaders -/

/-- A list of loaders is found if each one is, in the order of the list. -/
theorem resolveLoaders_eq_ok_iff {specs : List LoaderSpec} {loaders : List ResolvedLoader} :
    resolveLoaders delegate rules info context options specs = .ok loaders
      ↔ List.Forall₂ (LoaderSpec.ResolvesTo delegate rules info context options) specs loaders := by
  unfold resolveLoaders
  simp only [bind_eq_ok_iff, mapError_eq_ok_iff, mapM_bind_mapM_eq_ok_iff,
    LoaderSpec.exists_withOptions_iff_resolvesTo]

/-- Every loader that is found is found for one that was sought. -/
theorem exists_resolvesTo_of_mem {specs : List LoaderSpec} {loaders : List ResolvedLoader}
    (h : List.Forall₂ (LoaderSpec.ResolvesTo delegate rules info context options) specs loaders)
    {loader : ResolvedLoader} (hl : loader ∈ loaders) :
    ∃ spec ∈ specs, spec.ResolvesTo delegate rules info context options loader := by
  induction h with
  | nil => cases hl
  | cons hfound _ ih =>
    rcases List.mem_cons.1 hl with rfl | hl
    · exact ⟨_, List.mem_cons_self, hfound⟩
    · obtain ⟨spec, hs, hspec⟩ := ih hl
      exact ⟨spec, List.mem_cons_of_mem _ hs, hspec⟩

/-- The failures of a list of loaders: its references first. -/
def loaderFailures (delegate : Delegate) (rules : RuleSet) (info : ContextInfo)
    (context : String) (options : Json) (specs : List LoaderSpec) : List FactoryError :=
  specs.filterMap (LoaderSpec.lookupFailure? rules)
    ++ specs.filterMap (LoaderSpec.searchFailure? delegate info context options)

theorem filterMap_searchFailure?_of_mapM {specs found : List LoaderSpec}
    (h : specs.mapM (LoaderSpec.withOptions rules) = .ok found) :
    found.filterMap (LoaderSpec.searchFailure? delegate info context options)
      = specs.filterMap (LoaderSpec.searchFailure? delegate info context options) := by
  have hf := mapM_eq_ok_iff.1 h
  clear h
  induction hf with
  | nil => rfl
  | cons hs _ ih =>
    obtain ⟨given, _, rfl⟩ := LoaderSpec.withOptions_eq_ok_iff.1 hs
    simp only [List.filterMap_cons, LoaderSpec.searchFailure?, ih]

/-- A list of loaders that is not found fails as the first of its failures. -/
theorem failure?_resolveLoaders (specs : List LoaderSpec) :
    failure? (resolveLoaders delegate rules info context options specs)
      = (loaderFailures delegate rules info context options specs).head? := by
  unfold resolveLoaders loaderFailures
  refine failure?_bind_eq_head? ?_ fun found hfound => ?_
  · rw [failure?_mapM]
    simp only [LoaderSpec.failure?_withOptions]
  · have hsearch : LoaderSpec.searchFailure? delegate info context options = fun spec =>
        (failure? (resolveLoader delegate info context options spec)).map .resolution :=
      funext fun spec => (LoaderSpec.failure?_resolveLoader spec).symm
    rw [failure?_mapError, failure?_mapM, ← filterMap_searchFailure?_of_mapM hfound, hsearch,
      ← List.head?_map, List.map_filterMap]

end ImportChain
