/-
ImportChain.Proofs.Loader.Search — the whole outcome of looking for loaders.

What becomes of one loader is a judgement on the delegate's answers: where
it is found and what it runs with (`FoundAs`), how it fails (`FailsAs`), and
which questions are asked on its account (`Asks`).

`resolveLoaders_outcome` is the main statement: a reference that leads
nowhere comes before everything else, and nobody is asked; without one, all
loaders are found in their order, or the earliest that is not decides. What
is asked is what the search asks as a process, in whatever order the answers
come. `resolveLoaders_congr`: a delegate counts only for what it is asked.
-/
import ImportChain.Proofs.Loader.Resolution
import ImportChain.Proofs.Loader.Seeking

namespace ImportChain

open Outcome

/-! ## Places -/

namespace Request

/-- A place as a path and what follows it, from the first `?` on. -/
structure CutAs (place path query : String) : Prop where
  whole : place = path ++ query
  path_bare : '?' ∉ path.toList
  query_marked : query = "" ∨ ∃ text, query = "?" ++ text

theorem splitQuery_eq_iff {place path query : String} :
    splitQuery place = (path, query) ↔ CutAs place path query := by
  constructor
  · intro h
    by_cases hq : '?' ∈ place.toList
    · obtain ⟨before, text, hplace, hbefore⟩ := List.eq_append_cons_of_mem hq
      rw [splitQuery_of_append hplace hbefore] at h
      cases h
      refine ⟨?_, by rwa [String.toList_ofList], .inr ⟨String.ofList text, ?_⟩⟩
      · rw [← String.toList_inj, hplace]
        simp
      · rw [← String.toList_inj]
        simp
    · rw [splitQuery_of_notMem hq] at h
      cases h
      exact ⟨by simp, hq, .inl rfl⟩
  · rintro ⟨rfl, hpath, rfl | ⟨text, rfl⟩⟩
    · rw [String.append_empty, splitQuery_of_notMem hpath]
    · have hplace : (path ++ ("?" ++ text)).toList = path.toList ++ '?' :: text.toList := by simp
      rw [splitQuery_of_append hplace hpath, String.ofList_toList, Prod.mk.injEq]
      exact ⟨rfl, by rw [← String.toList_inj]; simp⟩

end Request

/-! ## Names -/

/-- A name without directories and without the suffix of loaders. -/
structure Bare (name : String) : Prop where
  no_slash : '/' ∉ name.toList
  no_suffix : ¬ ∃ stem, name = stem ++ loaderSuffix

theorem mayLackSuffix_iff {name : String} : mayLackSuffix name = true ↔ Bare name := by
  have hsuffix : Text.startsWith loaderSuffix.toList.reverse name.toList.reverse = true
      ↔ ∃ stem, name = stem ++ loaderSuffix := by
    rw [Text.startsWith_iff]
    constructor
    · rintro ⟨rest, h⟩
      refine ⟨String.ofList rest.reverse, ?_⟩
      rw [← String.toList_inj, ← List.reverse_inj, h]
      simp
    · rintro ⟨stem, rfl⟩
      exact ⟨stem.toList.reverse, by simp⟩
  unfold mayLackSuffix
  rw [Bool.and_eq_true, Bool.not_eq_true', ← Bool.not_eq_true, Bool.not_eq_true',
    ← Bool.not_eq_true, hsuffix, List.contains_iff_mem]
  exact ⟨fun h => ⟨h.1, h.2⟩, fun h => ⟨h.1, h.2⟩⟩

theorem isResolved_iff {answer : Except ResolutionError Resolution} :
    isResolved answer = true ↔ ∃ place data, answer = .ok (.resolved place data) := by
  cases answer with
  | error e => simp [isResolved]
  | ok resolution => cases resolution <;> simp [isResolved]

/-! ## Options -/

namespace LoaderOptions

theorem isSome_iff {opts : LoaderOptions} : opts.isSome = true ↔ opts ≠ .absent := by
  cases opts <;> simp [isSome]

theorem ofQuery_marked (text : String) :
    ofQuery ("?" ++ text) = if text = "" then .absent else .inline text := by
  have hlist : ("?" ++ text).toList = '?' :: text.toList := by simp
  unfold ofQuery
  by_cases htext : text = ""
  · rw [if_pos htext, htext]
    rfl
  · rw [if_neg htext, hlist]
    obtain ⟨c, rest, hrest⟩ := List.exists_cons_of_ne_nil (mt String.toList_eq_nil_iff.1 htext)
    simp only [hrest]
    rw [← hrest, String.ofList_toList]

end LoaderOptions

/-! ## One loader -/

namespace LoaderSpec

/-- A loader that has an identity in place of options. -/
structure RefersTo (spec : LoaderSpec) (ident : String) : Prop where
  no_options : spec.options = .absent
  named : spec.ident = some ident

/-- A reference that leads nowhere. -/
def Dangling (rules : RuleSet) (spec : LoaderSpec) : Prop :=
  ∃ ident, spec.RefersTo ident ∧ rules.options? ident = none

/-- What a loader runs with, given the query of the place where it is. -/
inductive RunsWith (rules : RuleSet) (spec : LoaderSpec) (query : String) :
    LoaderOptions → Prop
  | own (h : spec.options ≠ .absent) : RunsWith rules spec query spec.options
  | registered {ident : String} {fields : List (String × Json)} (h : spec.RefersTo ident)
      (hfields : rules.options? ident = some fields) :
      RunsWith rules spec query (.structured fields)
  | ofPlace {text : String} (h : spec.options = .absent) (hident : spec.ident = none)
      (hquery : query = "?" ++ text) (htext : text ≠ "") :
      RunsWith rules spec query (.inline text)
  | nothing (h : spec.options = .absent) (hident : spec.ident = none)
      (hquery : query = "" ∨ query = "?") : RunsWith rules spec query .absent

/-- A loader found as a given one. -/
def FoundAs (delegate : Delegate) (rules : RuleSet) (info : ContextInfo) (context : String)
    (options : Json) (spec : LoaderSpec) (loader : ResolvedLoader) : Prop :=
  ∃ place data query,
    delegate (loaderCall info context spec.identifier options) = .ok (.resolved place data)
    ∧ Request.CutAs place loader.path query
    ∧ spec.RunsWith rules query loader.options
    ∧ loader.ident = spec.ident

section Search

variable (delegate : Delegate) (info : ContextInfo) (context : String) (options : Json)
  (spec : LoaderSpec)

/-- The delegate knows where a loader is. -/
def Found : Prop :=
  ∃ place data, delegate (loaderCall info context spec.identifier options)
    = .ok (.resolved place data)

/-- A loader that would be found under its name with the suffix. -/
structure Hinted : Prop where
  bare : Bare spec.identifier
  found : ∃ place data, delegate
    (loaderCall info context (spec.identifier ++ loaderSuffix) options) = .ok (.resolved place data)

/-- How a loader fails. -/
inductive FailsAs : ResolutionError → Prop
  | ignored
      (h : delegate (loaderCall info context spec.identifier options) = .ok .ignored) :
      FailsAs ⟨spec.identifier, context, ignoredLoaderMessage⟩
  | refused {e : ResolutionError}
      (h : delegate (loaderCall info context spec.identifier options) = .error e)
      (hhint : ¬ spec.Hinted delegate info context options) : FailsAs e
  | hinted {e : ResolutionError}
      (h : delegate (loaderCall info context spec.identifier options) = .error e)
      (hhint : spec.Hinted delegate info context options) :
      FailsAs { e with message := e.message ++ "\n" ++ suffixHint spec.identifier }

/-- What is asked on account of a loader: a second time only after an
error. -/
inductive Asks : List Call → Prop
  | answered {r : Resolution}
      (h : delegate (loaderCall info context spec.identifier options) = .ok r) :
      Asks [loaderCall info context spec.identifier options]
  | givenUp {e : ResolutionError}
      (h : delegate (loaderCall info context spec.identifier options) = .error e)
      (hname : ¬ Bare spec.identifier) : Asks [loaderCall info context spec.identifier options]
  | retried {e : ResolutionError}
      (h : delegate (loaderCall info context spec.identifier options) = .error e)
      (hname : Bare spec.identifier) :
      Asks [loaderCall info context spec.identifier options,
        loaderCall info context (spec.identifier ++ loaderSuffix) options]

end Search

variable {delegate : Delegate} {rules : RuleSet} {info : ContextInfo} {context : String}
  {options : Json} {spec : LoaderSpec}

/-! ### The judgements and the search -/

theorem givenOptions_of_ne (h : spec.options ≠ .absent) :
    spec.givenOptions rules = some spec.options := by
  unfold givenOptions
  split
  · exact absurd ‹_› h
  · rfl

theorem givenOptions_of_refersTo {ident : String} (h : spec.RefersTo ident) :
    spec.givenOptions rules = (rules.options? ident).map .structured := by
  unfold givenOptions
  rw [h.no_options, h.named]

theorem givenOptions_of_absent (h : spec.options = .absent) (hident : spec.ident = none) :
    spec.givenOptions rules = some .absent := by
  unfold givenOptions
  rw [h, hident]

/-- What is given to a loader counts before the query of its place. -/
theorem runsWith_iff {query : String} (hmark : query = "" ∨ ∃ text, query = "?" ++ text)
    {opts : LoaderOptions} :
    spec.RunsWith rules query opts
      ↔ ∃ given, spec.givenOptions rules = some given
          ∧ opts = if given.isSome then given else .ofQuery query := by
  constructor
  · intro h
    cases h with
    | own h => exact ⟨_, givenOptions_of_ne h, (if_pos (LoaderOptions.isSome_iff.2 h)).symm⟩
    | registered h hfields =>
      exact ⟨.structured _, by rw [givenOptions_of_refersTo h, hfields]; rfl, rfl⟩
    | ofPlace h hident hquery htext =>
      refine ⟨_, givenOptions_of_absent h hident, ?_⟩
      rw [hquery, LoaderOptions.ofQuery_marked, if_neg htext]
      rfl
    | nothing h hident hquery =>
      refine ⟨_, givenOptions_of_absent h hident, ?_⟩
      rcases hquery with rfl | rfl <;> rfl
  · rintro ⟨given, hgiven, rfl⟩
    by_cases h : spec.options = .absent
    · cases hident : spec.ident with
      | some ident =>
        rw [givenOptions_of_refersTo ⟨h, hident⟩] at hgiven
        obtain ⟨fields, hfields, rfl⟩ := Option.map_eq_some_iff.1 hgiven
        exact .registered ⟨h, hident⟩ hfields
      | none =>
        rw [givenOptions_of_absent h hident] at hgiven
        cases hgiven
        show spec.RunsWith rules query (.ofQuery query)
        rcases hmark with rfl | ⟨text, rfl⟩
        · exact .nothing h hident (.inl rfl)
        · rw [LoaderOptions.ofQuery_marked]
          by_cases htext : text = ""
          · rw [if_pos htext]
            exact .nothing h hident (.inr (by rw [htext]; rfl))
          · rw [if_neg htext]
            exact .ofPlace h hident rfl htext
    · rw [givenOptions_of_ne h] at hgiven
      cases hgiven
      rw [if_pos (LoaderOptions.isSome_iff.2 h)]
      exact .own h

theorem resolvesTo_iff_foundAs {loader : ResolvedLoader} :
    spec.ResolvesTo delegate rules info context options loader
      ↔ spec.FoundAs delegate rules info context options loader := by
  unfold ResolvesTo FoundAs
  constructor
  · rintro ⟨place, data, given, hcall, hgiven, hpath, hopts, hident⟩
    have hcut : Request.CutAs place loader.path (Request.splitQuery place).2 :=
      Request.splitQuery_eq_iff.1 (by rw [hpath])
    exact ⟨place, data, _, hcall, hcut,
      (runsWith_iff hcut.query_marked).2 ⟨given, hgiven, hopts⟩, hident⟩
  · rintro ⟨place, data, query, hcall, hcut, hruns, hident⟩
    obtain ⟨given, hgiven, hopts⟩ := (runsWith_iff hcut.query_marked).1 hruns
    have hsplit := Request.splitQuery_eq_iff.2 hcut
    exact ⟨place, data, given, hcall, hgiven, by rw [hsplit], by rw [hsplit, hopts], hident⟩

theorem lookupFailure?_eq_some_iff {error : FactoryError} :
    spec.lookupFailure? rules = some error
      ↔ ∃ ident, spec.RefersTo ident ∧ rules.options? ident = none
        ∧ error = .optionLookup ident := by
  unfold lookupFailure?
  split
  · rename_i ident hopts hident
    rw [Option.ite_none_right_eq_some]
    constructor
    · rintro ⟨hnone, h⟩
      cases h
      exact ⟨ident, ⟨hopts, hident⟩, hnone, rfl⟩
    · rintro ⟨ident', href, hnone, rfl⟩
      cases hident.symm.trans href.named
      exact ⟨hnone, rfl⟩
  · rename_i hno
    constructor
    · intro h
      cases h
    · rintro ⟨ident, href, -⟩
      exact absurd href.named (hno ident href.no_options)

/-- A loader's references are in order exactly if they do not dangle. -/
theorem lookupFailure?_eq_none_iff :
    spec.lookupFailure? rules = none ↔ ¬ spec.Dangling rules := by
  rw [Option.eq_none_iff_forall_ne_some]
  constructor
  · rintro h ⟨ident, href, hnone⟩
    exact h _ (lookupFailure?_eq_some_iff.2 ⟨ident, href, hnone, rfl⟩)
  · intro h error herror
    obtain ⟨ident, href, hnone, -⟩ := lookupFailure?_eq_some_iff.1 herror
    exact h ⟨ident, href, hnone⟩

instance : DecidablePred (LoaderSpec.Dangling rules) := fun _ =>
  decidable_of_iff (¬ _ = none) (not_iff_comm.1 lookupFailure?_eq_none_iff.symm)

/-- The error of a loader is explained exactly if it is one that the hint is
about. -/
theorem withSuffixHint_of_hinted (h : spec.Hinted delegate info context options)
    (e : ResolutionError) :
    withSuffixHint delegate info context spec.identifier options e
      = { e with message := e.message ++ "\n" ++ suffixHint spec.identifier } := by
  unfold withSuffixHint
  rw [if_pos (Bool.and_eq_true_iff.2 ⟨mayLackSuffix_iff.2 h.bare, isResolved_iff.2 h.found⟩)]

theorem withSuffixHint_of_not_hinted (h : ¬ spec.Hinted delegate info context options)
    (e : ResolutionError) :
    withSuffixHint delegate info context spec.identifier options e = e := by
  unfold withSuffixHint
  rw [if_neg fun hb => h ⟨mayLackSuffix_iff.1 (Bool.and_eq_true_iff.1 hb).1,
    isResolved_iff.1 (Bool.and_eq_true_iff.1 hb).2⟩]

theorem searchFailure?_eq_some_iff {error : FactoryError} :
    spec.searchFailure? delegate info context options = some error
      ↔ ∃ e, spec.FailsAs delegate info context options e ∧ error = .resolution e := by
  unfold searchFailure?
  constructor
  · intro h
    split at h
    · cases h
    · rename_i hcall
      cases h
      exact ⟨_, .ignored hcall, rfl⟩
    · rename_i e hcall
      cases h
      refine ⟨_, ?_, rfl⟩
      by_cases hhint : spec.Hinted delegate info context options
      · rw [withSuffixHint_of_hinted hhint]
        exact .hinted hcall hhint
      · rw [withSuffixHint_of_not_hinted hhint]
        exact .refused hcall hhint
  · rintro ⟨e, hfails, rfl⟩
    cases hfails with
    | ignored h =>
      unfold loaderCall at h
      rw [h]
    | refused h hhint =>
      unfold loaderCall at h
      rw [h]
      simp only [withSuffixHint_of_not_hinted hhint]
    | hinted h hhint =>
      unfold loaderCall at h
      rw [h]
      simp only [withSuffixHint_of_hinted hhint]

theorem searchFailure?_eq_none_iff :
    spec.searchFailure? delegate info context options = none
      ↔ spec.Found delegate info context options := by
  unfold searchFailure? Found loaderCall
  cases delegate ⟨.loader, info, context, spec.identifier, options⟩ with
  | error e => simp
  | ok answer => cases answer <;> simp

instance : DecidablePred (LoaderSpec.Found delegate info context options) := fun _ =>
  decidable_of_iff (_ = none) searchFailure?_eq_none_iff

/-- The questions asked for a loader are those that its answers call for. -/
theorem asks_iff {asked : List Call} :
    spec.Asks delegate info context options asked
      ↔ loaderCalls delegate info context options spec = asked := by
  constructor
  · intro h
    unfold loaderCalls
    cases h with
    | answered h => simp only [h]
    | givenUp h hname => simp only [h, if_neg (mt mayLackSuffix_iff.1 hname)]
    | retried h hname => simp only [h, if_pos (mayLackSuffix_iff.2 hname)]
  · rintro rfl
    unfold loaderCalls
    cases h : delegate (loaderCall info context spec.identifier options) with
    | ok answer => simpa only [h] using Asks.answered h
    | error e =>
      simp only [h]
      by_cases hname : Bare spec.identifier
      · rw [if_pos (mayLackSuffix_iff.2 hname)]
        exact .retried h hname
      · rw [if_neg (mt mayLackSuffix_iff.1 hname)]
        exact .givenUp h hname

end LoaderSpec

/-! ## Lists of loaders -/

section Lists

variable {delegate : Delegate} {rules : RuleSet} {info : ContextInfo} {context : String}
  {options : Json} {specs : List LoaderSpec}

/-- Looking up all references succeeds exactly if none of them dangles. -/
theorem exists_mapM_withOptions_iff :
    (∃ found, specs.mapM (LoaderSpec.withOptions rules) = .ok found)
      ↔ ∀ spec ∈ specs, ¬ spec.Dangling rules := by
  rw [← failure?_eq_none_iff, failure?_mapM, List.head?_filterMap, List.findSome?_eq_none_iff]
  simp only [LoaderSpec.failure?_withOptions, LoaderSpec.lookupFailure?_eq_none_iff]

/-- The earliest reference that leads nowhere comes before anything that the
delegate could say. -/
theorem resolveLoaders_of_dangling (h : ∃ spec ∈ specs, spec.Dangling rules) :
    ∃ spec ident, Earliest (LoaderSpec.Dangling rules) specs spec ∧ spec.RefersTo ident
      ∧ resolveLoaders delegate rules info context options specs
        = .error (.optionLookup ident) := by
  obtain ⟨spec, error, hfirst, hspec, hhead⟩ :=
    exists_earliest (fun _ => LoaderSpec.lookupFailure?_eq_none_iff) h
  obtain ⟨ident, href, -, rfl⟩ := LoaderSpec.lookupFailure?_eq_some_iff.1 hspec
  refine ⟨spec, ident, hfirst, href, ?_⟩
  rw [← failure?_eq_some_iff, failure?_resolveLoaders, loaderFailures, List.head?_append, hhead]
  rfl

theorem loaderFailures_of_not_dangling (h : ∀ spec ∈ specs, ¬ spec.Dangling rules) :
    loaderFailures delegate rules info context options specs
      = specs.filterMap (LoaderSpec.searchFailure? delegate info context options) := by
  unfold loaderFailures
  rw [List.filterMap_eq_nil_iff.2 fun s hs => LoaderSpec.lookupFailure?_eq_none_iff.2 (h s hs),
    List.nil_append]

/-- Without such references, the earliest loader that is not found decides. -/
theorem resolveLoaders_of_not_found (h : ∀ spec ∈ specs, ¬ spec.Dangling rules)
    (hmissing : ∃ spec ∈ specs, ¬ spec.Found delegate info context options) :
    ∃ spec error, Earliest (fun s => ¬ s.Found delegate info context options) specs spec
      ∧ spec.FailsAs delegate info context options error
      ∧ resolveLoaders delegate rules info context options specs
        = .error (.resolution error) := by
  obtain ⟨spec, error, hfirst, hspec, hhead⟩ :=
    exists_earliest (fun _ => by rw [LoaderSpec.searchFailure?_eq_none_iff, not_not]) hmissing
  obtain ⟨e, hfails, rfl⟩ := LoaderSpec.searchFailure?_eq_some_iff.1 hspec
  refine ⟨spec, e, hfirst, hfails, ?_⟩
  rw [← failure?_eq_some_iff, failure?_resolveLoaders, loaderFailures_of_not_dangling h, hhead]

/-- Without such references, a list of loaders is found if the delegate finds
each one. -/
theorem exists_resolveLoaders_iff (h : ∀ spec ∈ specs, ¬ spec.Dangling rules) :
    (∃ loaders, resolveLoaders delegate rules info context options specs = .ok loaders)
      ↔ ∀ spec ∈ specs, spec.Found delegate info context options := by
  rw [← failure?_eq_none_iff, failure?_resolveLoaders, loaderFailures_of_not_dangling h,
    List.head?_filterMap, List.findSome?_eq_none_iff]
  simp only [LoaderSpec.searchFailure?_eq_none_iff]

/-- Nobody is asked if a reference leads nowhere. -/
theorem loadersCalls_of_dangling (h : ∃ spec ∈ specs, spec.Dangling rules) :
    loadersCalls delegate rules info context options specs = [] := by
  unfold loadersCalls
  cases hfound : specs.mapM (LoaderSpec.withOptions rules) with
  | error e => rfl
  | ok found =>
    obtain ⟨spec, hspec, hdangling⟩ := h
    have hno := exists_mapM_withOptions_iff.1 ⟨found, hfound⟩
    exact absurd hdangling (hno spec hspec)

/-- Looking up references does not change what is asked. -/
theorem loadersCalls_eq_flatMap (h : ∀ spec ∈ specs, ¬ spec.Dangling rules) :
    loadersCalls delegate rules info context options specs
      = specs.flatMap (loaderCalls delegate info context options) := by
  obtain ⟨found, hfound⟩ := exists_mapM_withOptions_iff.2 h
  unfold loadersCalls
  rw [hfound]
  have hpairs := mapM_eq_ok_iff.1 hfound
  clear h hfound
  induction hpairs with
  | nil => rfl
  | cons hs _ ih =>
    obtain ⟨given, -, rfl⟩ := LoaderSpec.withOptions_eq_ok_iff.1 hs
    simp only [List.flatMap_cons] at ih ⊢
    rw [ih]
    rfl

/-- All loaders are asked about, whether or not others fail. -/
theorem exists_asks_loadersCalls (h : ∀ spec ∈ specs, ¬ spec.Dangling rules) :
    ∃ asked, List.Forall₂ (LoaderSpec.Asks delegate info context options) specs asked
      ∧ loadersCalls delegate rules info context options specs = asked.flatten := by
  refine ⟨specs.map (loaderCalls delegate info context options), ?_, ?_⟩
  · rw [List.forall₂_map_right_iff, List.forall₂_same]
    exact fun spec _ => LoaderSpec.asks_iff.2 rfl
  · rw [loadersCalls_eq_flatMap h, List.flatMap_def]

/-- **The outcome of looking for loaders.** If a reference leads nowhere, the
earliest such decides and nobody is asked. Else the delegate is asked about
each loader, and once more after an error for a bare name; all of them are
found, in their order, if it finds each one, and otherwise the earliest that
it does not find decides. The search as a process asks just that, and comes to
just that, whichever of its questions are answered first. -/
theorem resolveLoaders_outcome (delegate : Delegate) (rules : RuleSet) (info : ContextInfo)
    (context : String) (options : Json) (specs : List LoaderSpec) :
    ((∃ spec ∈ specs, spec.Dangling rules) →
      (∃ spec ident, Earliest (LoaderSpec.Dangling rules) specs spec ∧ spec.RefersTo ident
        ∧ resolveLoaders delegate rules info context options specs
          = .error (.optionLookup ident))
      ∧ loadersCalls delegate rules info context options specs = [])
    ∧ ((∀ spec ∈ specs, ¬ spec.Dangling rules) →
      ((∃ loaders, resolveLoaders delegate rules info context options specs = .ok loaders)
        ↔ ∀ spec ∈ specs, spec.Found delegate info context options)
      ∧ (∀ loaders, resolveLoaders delegate rules info context options specs = .ok loaders
        ↔ List.Forall₂ (LoaderSpec.FoundAs delegate rules info context options) specs loaders)
      ∧ ((∃ spec ∈ specs, ¬ spec.Found delegate info context options) →
        ∃ spec error, Earliest (fun s => ¬ s.Found delegate info context options) specs spec
          ∧ spec.FailsAs delegate info context options error
          ∧ resolveLoaders delegate rules info context options specs
            = .error (.resolution error))
      ∧ ∃ asked, List.Forall₂ (LoaderSpec.Asks delegate info context options) specs asked
          ∧ loadersCalls delegate rules info context options specs = asked.flatten)
    ∧ (∃ asked outcome,
      Process.Run delegate (seekLoaders rules info context options specs) asked outcome)
    ∧ ∀ asked outcome,
      Process.Run delegate (seekLoaders rules info context options specs) asked outcome →
        outcome = resolveLoaders delegate rules info context options specs
        ∧ asked.Perm (loadersCalls delegate rules info context options specs) := by
  refine ⟨fun h => ⟨resolveLoaders_of_dangling h, loadersCalls_of_dangling h⟩, fun h => ?_,
    Process.exists_run delegate _, fun _ _ => run_seekLoaders⟩
  refine ⟨exists_resolveLoaders_iff h, fun loaders => ?_, resolveLoaders_of_not_found h,
    exists_asks_loadersCalls h⟩
  rw [resolveLoaders_eq_ok_iff]
  exact ⟨fun hf => hf.imp fun _ _ => LoaderSpec.resolvesTo_iff_foundAs.1,
    fun hf => hf.imp fun _ _ => LoaderSpec.resolvesTo_iff_foundAs.2⟩

end Lists

/-- A delegate that knows one loader, with a query. -/
def cssDelegate : Delegate := fun call =>
  if call.request = "css-loader" then .ok (.resolved "/l/css.js?mode=fast" none)
  else .error ⟨call.request, call.context, "Module not found"⟩

/-- A loader that is found and one that lacks its suffix. -/
def cssSpecs : List LoaderSpec := [{ identifier := "css-loader" }, { identifier := "css" }]

/-- A reference that nobody registered. -/
def fastSpec : LoaderSpec := { identifier := "css-loader", ident := some "fast" }

/-- Where a reference leads nowhere, no schedule asks anything. -/
theorem resolveLoaders_outcome_of_cssDelegate :
    (∃ loaders, resolveLoaders cssDelegate .empty {} "/app" .null (cssSpecs.take 1) = .ok loaders)
    ∧ (∃ spec error, Earliest (fun s => ¬ s.Found cssDelegate {} "/app" .null) cssSpecs spec
      ∧ spec.FailsAs cssDelegate {} "/app" .null error
      ∧ resolveLoaders cssDelegate .empty {} "/app" .null cssSpecs = .error (.resolution error))
    ∧ loadersCalls cssDelegate .empty {} "/app" .null (cssSpecs ++ [fastSpec]) = []
    ∧ ∀ asked outcome, Process.Run cssDelegate
        (seekLoaders .empty {} "/app" .null (cssSpecs ++ [fastSpec])) asked outcome →
          asked = [] := by
  have hfound := resolveLoaders_outcome cssDelegate .empty {} "/app" .null (cssSpecs.take 1)
  have hfails := resolveLoaders_outcome cssDelegate .empty {} "/app" .null cssSpecs
  have hdangles :=
    resolveLoaders_outcome cssDelegate .empty {} "/app" .null (cssSpecs ++ [fastSpec])
  have hnone := (hdangles.1 (by decide +kernel)).2
  refine ⟨(hfound.2.1 (by decide +kernel)).1.2 (by decide +kernel),
    (hfails.2.1 (by decide +kernel)).2.2.1 (by decide +kernel), hnone, fun asked outcome hrun => ?_⟩
  obtain ⟨-, hasked⟩ := hdangles.2.2.2 asked outcome hrun
  rw [hnone] at hasked
  exact List.perm_nil.1 hasked

/-! ## Delegates that answer alike -/

section Agreement

variable {delegate other : Delegate} {rules : RuleSet} {info : ContextInfo} {context : String}
  {options : Json}

theorem asks_congr {spec : LoaderSpec} {asked : List Call}
    (h : spec.Asks delegate info context options asked)
    (hagree : ∀ call ∈ asked, other call = delegate call) :
    spec.Asks other info context options asked := by
  cases h with
  | answered h => exact .answered ((hagree _ List.mem_cons_self).trans h)
  | givenUp h hname => exact .givenUp ((hagree _ List.mem_cons_self).trans h) hname
  | retried h hname => exact .retried ((hagree _ List.mem_cons_self).trans h) hname

theorem resolveLoader_congr {spec : LoaderSpec} {asked : List Call}
    (h : spec.Asks delegate info context options asked)
    (hagree : ∀ call ∈ asked, other call = delegate call) :
    resolveLoader other info context options spec
      = resolveLoader delegate info context options spec := by
  unfold resolveLoader
  cases h with
  | @answered answer h =>
    rw [hagree _ List.mem_cons_self, h]
    cases answer <;> rfl
  | givenUp h hname =>
    have hlack : mayLackSuffix spec.identifier = false :=
      Bool.eq_false_iff.2 (mt mayLackSuffix_iff.1 hname)
    rw [hagree _ List.mem_cons_self, h]
    simp only [withSuffixHint, hlack, Bool.false_and]
  | retried h hname =>
    rw [hagree _ List.mem_cons_self, h]
    simp only [withSuffixHint, hagree _ (List.mem_cons_of_mem _ List.mem_cons_self)]

/-- A delegate counts only for what it is asked. -/
theorem resolveLoaders_congr {specs : List LoaderSpec}
    (h : ∀ call ∈ loadersCalls delegate rules info context options specs,
      other call = delegate call) :
    resolveLoaders other rules info context options specs
        = resolveLoaders delegate rules info context options specs
      ∧ loadersCalls other rules info context options specs
        = loadersCalls delegate rules info context options specs := by
  unfold loadersCalls at h ⊢
  unfold resolveLoaders
  cases hfound : specs.mapM (LoaderSpec.withOptions rules) with
  | error e => exact ⟨rfl, rfl⟩
  | ok found =>
    rw [hfound] at h
    have hagree : ∀ spec ∈ found, ∀ call ∈ loaderCalls delegate info context options spec,
        other call = delegate call :=
      fun spec hs call hc => h call (List.mem_flatMap.2 ⟨spec, hs, hc⟩)
    have hresults : found.map (resolveLoader other info context options)
        = found.map (resolveLoader delegate info context options) :=
      List.map_congr_left fun spec hs =>
        resolveLoader_congr (LoaderSpec.asks_iff.2 rfl) (hagree spec hs)
    have hcalls : found.map (loaderCalls other info context options)
        = found.map (loaderCalls delegate info context options) :=
      List.map_congr_left fun spec hs => LoaderSpec.asks_iff.1
        (asks_congr (LoaderSpec.asks_iff.2 rfl) (hagree spec hs))
    have hmapM : ∀ f : LoaderSpec → Except ResolutionError ResolvedLoader,
        found.mapM f = (found.map f).mapM id := fun f => by rw [List.mapM_map, Function.id_comp]
    refine ⟨?_, by simp only [List.flatMap_def, hcalls]⟩
    show Except.mapError _ (found.mapM _) = Except.mapError _ (found.mapM _)
    rw [hmapM, hresults, ← hmapM]

end Agreement

end ImportChain
