/-
ImportChain.Proofs.Loader.Regular — what every loader of a chain keeps to,
and that it can be found again by its printed form.

A regular loader has an identity exactly if its options are structured, its
query is not empty and its path has no `?`. Requests and rules write
regular loaders, or references to options (`regular_ofChars`,
`RuleSet.regular_of_mem_exec`), and what is found for these is regular
(`LoaderSpec.Regular.resolved`).

The printed form of a regular loader reads back as the loader without its
structured options (`ofChars_toIdent`). `resolvesTo_asWritten` is the way
back to the loader: the delegate has to leave its path alone, and its
identity has to lead to its own options.
-/
import ImportChain.Proofs.Loader.Resolution
import ImportChain.Proofs.Request.RoundTrip
import ImportChain.Proofs.Rule.Identity

namespace ImportChain

open Outcome

/-! ## Options and identities -/

namespace LoaderOptions

/-- Options with their identity, which only structured ones have. -/
inductive Identified : LoaderOptions → Option String → Prop where
  | absent : Identified .absent none
  | inline {query : String} (h : query ≠ "") : Identified (.inline query) none
  | structured (fields : List (String × Json)) (ident : String) :
    Identified (.structured fields) (some ident)

theorem identified_inline_cons (c : Char) (query : List Char) :
    Identified (.inline (String.ofList (c :: query))) none := by
  refine .inline fun h => ?_
  have := congrArg String.toList h
  simp at this

theorem identified_ofQuery (query : String) : (ofQuery query).Identified none := by
  unfold ofQuery
  cases query.toList with
  | nil => exact .absent
  | cons c text =>
    cases text with
    | nil => exact .absent
    | cons c' text => exact identified_inline_cons c' text

/-- Options of a rule that are well-formed get an identity if they need
one. -/
theorem identified_ofJson {json : Option Json} {options : LoaderOptions}
    (h : ofJson json = .ok options) (explicit : Option String) (position : String) :
    options.Identified (options.identity explicit position) := by
  unfold ofJson at h
  split at h
  · cases h
    exact .absent
  · cases h
    exact .absent
  · next s =>
    by_cases hs : s = ""
    · rw [if_pos hs] at h
      cases h
      exact .absent
    · rw [if_neg hs] at h
      cases h
      exact .inline hs
  · cases h
    exact .structured _ _
  · cases h

end LoaderOptions

/-! ## Loaders as written -/

namespace LoaderSpec

/-- A loader with options, or with a reference to some. -/
inductive Regular : LoaderSpec → Prop where
  | given {spec : LoaderSpec} (h : spec.options.Identified spec.ident) : Regular spec
  | reference (name ident : String) : Regular ⟨name, .absent, some ident⟩

theorem regular_ofChars (segment : List Char) : (ofChars segment).Regular := by
  unfold ofChars
  split
  · exact .given .absent
  · exact .given .absent
  · next identifier c query _ =>
    split
    · exact .reference _ _
    · exact .given (LoaderOptions.identified_inline_cons c query)

end LoaderSpec

/-- The loaders of a request are written in segments. -/
theorem Request.exists_ofChars_of_mem_parse {context raw : String} {spec : LoaderSpec}
    (h : spec ∈ (parse context raw).loaders) : ∃ segment, spec = LoaderSpec.ofChars segment := by
  have hbody : ∀ (name : Option String) (rest : List Char),
      spec ∈ (ofBody name rest).loaders → ∃ segment, spec = LoaderSpec.ofChars segment := by
    intro name rest hs
    obtain ⟨segment, _, rfl⟩ := List.mem_map.1 hs
    exact ⟨segment, rfl⟩
  unfold parse at h
  split at h
  · exact hbody _ _ h
  · exact hbody _ _ h

theorem Request.regular_of_mem_parse {context raw : String} {spec : LoaderSpec}
    (h : spec ∈ (parse context raw).loaders) : spec.Regular := by
  obtain ⟨segment, rfl⟩ := exists_ofChars_of_mem_parse h
  exact LoaderSpec.regular_ofChars segment

theorem UseItem.regular_of_mem_loaders {position : String} {spec : LoaderSpec} :
    ∀ {item : UseItem}, .ready spec ∈ item.loaders position → spec.Regular
  | .request text, h => by
      obtain ⟨segment, _, hs⟩ := List.mem_map.1 h
      cases hs
      exact LoaderSpec.regular_ofChars segment
  | .loader name json explicit, h => by
      cases hj : LoaderOptions.ofJson json with
      | error found =>
        simp [loaders, hj] at h
      | ok options =>
        simp only [loaders, hj] at h
        cases List.mem_singleton.1 h
        exact .given (LoaderOptions.identified_ofJson hj explicit position)

namespace RuleSet

theorem regular_of_mem_exec {rules : List Rule} {set : RuleSet} (h : compile rules = .ok set)
    {facts : Facts} {spec : LoaderSpec} {enforce : Enforce}
    (he : .use spec enforce ∈ set.exec facts) : spec.Regular := by
  obtain ⟨entry, -, hl⟩ := exists_entry_of_use_mem_exec h he
  exact UseItem.regular_of_mem_loaders hl

end RuleSet

/-! ## Loaders as found -/

/-- A loader whose path is only a path and whose options have an identity
if they need one. -/
structure ResolvedLoader.Regular (loader : ResolvedLoader) : Prop where
  path : '?' ∉ loader.path.toList
  options : loader.options.Identified loader.ident

section Search

variable {delegate : Delegate} {rules : RuleSet} {info : ContextInfo} {context : String}
  {options : Json}

/-- What is found for a regular loader is regular. -/
theorem LoaderSpec.Regular.resolved {spec : LoaderSpec} (hs : spec.Regular)
    {loader : ResolvedLoader} (h : spec.ResolvesTo delegate rules info context options loader) :
    loader.Regular := by
  obtain ⟨place, data, given, _, hgiven, hpath, hoptions, hident⟩ := h
  refine ⟨hpath ▸ Request.query_notMem_splitQuery place, ?_⟩
  rw [hoptions, hident]
  cases hs with
  | reference name ident =>
    obtain ⟨fields, _, rfl⟩ := Option.map_eq_some_iff.1 hgiven
    exact .structured fields ident
  | given hspec =>
    obtain ⟨name, opts, ident⟩ := spec
    cases hspec with
    | absent =>
      cases hgiven
      exact LoaderOptions.identified_ofQuery _
    | inline hquery =>
      cases hgiven
      exact .inline hquery
    | structured fields ident =>
      cases hgiven
      exact .structured fields ident

/-! ## Loaders as printed -/

namespace ResolvedLoader

/-- The loader that the printed form writes: structured options are only
referred to. -/
def asWritten (loader : ResolvedLoader) : LoaderSpec :=
  match loader.options with
  | .structured _ => ⟨loader.path, .absent, loader.ident⟩
  | options => ⟨loader.path, options, loader.ident⟩

/-- A regular loader is read back from its printed form. A query that begins
with `?` would be taken for a reference. -/
theorem ofChars_toIdent {loader : ResolvedLoader} (h : loader.Regular)
    (hquery : ∀ query, loader.options = .inline query → query.toList.head? ≠ some '?') :
    LoaderSpec.ofChars loader.toIdent.toList = loader.asWritten := by
  obtain ⟨path, opts, ident⟩ := loader
  obtain ⟨hpath, hopts⟩ := h
  have hcut : ∀ rest : List Char, Text.cutAt '?' (path.toList ++ '?' :: rest)
      = some (path.toList, rest) := fun rest => Text.cutAt_eq_some_iff.2 ⟨rfl, hpath⟩
  cases hopts with
  | absent =>
    show LoaderSpec.ofChars path.toList = ⟨path, .absent, none⟩
    rw [LoaderSpec.ofChars_of_notMem hpath, String.ofList_toList]
    rfl
  | @inline query hne =>
    have htext : (ResolvedLoader.toIdent ⟨path, .inline query, none⟩).toList
        = path.toList ++ '?' :: query.toList := by
      simp [toIdent, identText, String.toList_append]
    unfold LoaderSpec.ofChars
    rw [htext, hcut]
    cases hq : query.toList with
    | nil => exact absurd (String.toList_eq_nil_iff.1 hq) hne
    | cons c rest =>
      have hc : c ≠ '?' := fun e => hquery query rfl (by simp [hq, e])
      simp [asWritten, hc, ← hq]
  | structured fields ident =>
    have htext : (ResolvedLoader.toIdent ⟨path, .structured fields, some ident⟩).toList
        = path.toList ++ '?' :: '?' :: ident.toList := by
      simp [toIdent, identText, String.toList_append]
    unfold LoaderSpec.ofChars
    rw [htext, hcut]
    simp [asWritten]

/-- A regular loader is found by what its printed form writes. -/
theorem resolvesTo_asWritten {loader : ResolvedLoader} (h : loader.Regular)
    (hfixed : ∃ data, delegate ⟨.loader, info, context, loader.path, options⟩
      = .ok (.resolved loader.path data))
    (hident : ∀ ident, loader.ident = some ident →
      (rules.options? ident).map LoaderOptions.structured = some loader.options) :
    loader.asWritten.ResolvesTo delegate rules info context options loader := by
  obtain ⟨data, hcall⟩ := hfixed
  obtain ⟨path, opts, ident⟩ := loader
  obtain ⟨hpath, hopts⟩ := h
  have hsplit := Request.splitQuery_of_notMem hpath
  cases hopts with
  | absent => exact ⟨path, data, .absent, hcall, rfl, by rw [hsplit], by rw [hsplit]; rfl, rfl⟩
  | @inline query _ =>
    exact ⟨path, data, .inline query, hcall, rfl, by rw [hsplit], rfl, rfl⟩
  | structured fields ident =>
    exact ⟨path, data, .structured fields, hcall, hident ident rfl, by rw [hsplit], rfl, rfl⟩

end ResolvedLoader

end Search

end ImportChain
