/-
ImportChain.Proofs.Chain.Suppression — what a mark in front of a request
changes.

A mark suppresses rule loaders and does nothing else. The request that
follows it is read as it was without the mark (`Request.parse_mark_append`,
`Request.parse_dash_append`), so that the same rules contribute the same
effects, of which fewer count: what is found for those that still count is
found as before, and none of them is malformed if none was
(`Setup.assemble_suppressed`).

`suppressed_of_defaultResolver` is the main statement. The text after the
mark must not begin with another one, and after `-!` not with `=!`, which
would make the `-` a match-resource.
-/
import ImportChain.Proofs.Chain.Compound

namespace ImportChain

open Outcome

/-! ## Marks -/

namespace Request

variable {context raw : String}

theorem splitMatchResource_eq_none (h : (parse context raw).matchResource = none) :
    splitMatchResource raw.toList = none := by
  cases hsplit : splitMatchResource raw.toList with
  | none => rfl
  | some cut =>
    unfold parse at h
    rw [hsplit] at h
    cases h

theorem splitMatchResource_bang_cons (rest : List Char) :
    splitMatchResource ('!' :: rest) = none := rfl

theorem splitMatchResource_dash_bang_cons {rest : List Char}
    (h : ∀ name, rest ≠ '=' :: '!' :: name) : splitMatchResource ('-' :: '!' :: rest) = none := by
  have hcut : Text.cutAt '!' ('-' :: '!' :: rest) = some (['-'], rest) :=
    Text.cutAt_eq_some_iff.2 ⟨rfl, by decide⟩
  unfold splitMatchResource
  rw [hcut]
  split
  · next heq =>
    cases heq
    exact absurd rfl (h _)
  · rfl

/-- A mark changes the suppression of the text that follows it. -/
theorem ofBody_mark_append {body : List Char} (hbang : body.head? ≠ some '!')
    (hdash : ∀ rest, body ≠ '-' :: '!' :: rest) (matchResource : Option String)
    (s : Suppression) :
    ofBody matchResource (s.mark.toList ++ body)
      = { ofBody matchResource body with suppression := s } := by
  have hbody : withoutMark body = body :=
    withoutMark_mark_append hbang .nothing fun _ => hdash
  unfold ofBody
  rw [ofChars_mark_append hbang s fun _ => hdash, withoutMark_mark_append hbang s fun _ => hdash,
    hbody]

theorem parse_mark_append (hmatch : (parse context raw).matchResource = none)
    (hbang : raw.toList.head? ≠ some '!') (hdash : ∀ rest, raw.toList ≠ '-' :: '!' :: rest)
    (s : Suppression) :
    parse context (s.mark ++ raw) = { parse context raw with suppression := s } := by
  have hnone := splitMatchResource_eq_none hmatch
  have hmarked : splitMatchResource (s.mark.toList ++ raw.toList) = none := by
    cases s with
    | nothing => exact hnone
    | automatic => exact splitMatchResource_bang_cons _
    | everything => exact splitMatchResource_bang_cons _
  unfold parse
  rw [String.toList_append, hmarked, hnone]
  exact ofBody_mark_append hbang hdash none s

/-- A `-!` is another way to write `!`, except before `=!`. -/
theorem parse_dash_append (hmatch : (parse context raw).matchResource = none)
    (hbang : raw.toList.head? ≠ some '!') (hdash : ∀ rest, raw.toList ≠ '-' :: '!' :: rest)
    (hmarker : ∀ rest, raw.toList ≠ '=' :: '!' :: rest) :
    parse context ("-!" ++ raw) = { parse context raw with suppression := .automatic } := by
  have hsplit : splitMatchResource ("-!" ++ raw).toList = none := by
    rw [String.toList_append]
    exact splitMatchResource_dash_bang_cons hmarker
  have hbody : ofBody none ("-!" ++ raw).toList = ofBody none ('!' :: raw.toList) := by
    rw [String.toList_append]
    show (⟨none, .automatic, _, _⟩ : Request) = ofBody none ('!' :: raw.toList)
    unfold ofBody
    rw [show Suppression.ofChars ('!' :: raw.toList) = .automatic from
      ofChars_mark_append hbang .automatic nofun]
    rfl
  unfold parse
  rw [hsplit, splitMatchResource_eq_none hmatch]
  exact hbody.trans (ofBody_mark_append hbang hdash none .automatic)

/-- A text that begins with none of the marks, nor with the marker of a
match-resource, as its characters say it. -/
theorem unmarked_toList (h : ∀ mark ∈ ["!", "-!", "=!"], ∀ rest, raw ≠ mark ++ rest) :
    raw.toList.head? ≠ some '!' ∧ (∀ rest, raw.toList ≠ '-' :: '!' :: rest)
      ∧ ∀ rest, raw.toList ≠ '=' :: '!' :: rest := by
  have hchars : ∀ mark ∈ ["!", "-!", "=!"], ∀ rest, raw.toList ≠ mark.toList ++ rest := by
    intro mark hm rest he
    refine h mark hm (String.ofList rest) (String.toList_inj.1 ?_)
    rw [he, String.toList_append, String.toList_ofList]
  refine ⟨fun hhead => ?_, hchars "-!" (by simp), hchars "=!" (by simp)⟩
  obtain ⟨rest, hrest⟩ := List.head?_eq_some_iff.1 hhead
  exact hchars "!" (by simp) rest hrest

end Request

/-! ## Effects that still count -/

namespace Suppression

/-- What is left of what stands at a position. -/
def keep {α : Type} (s : Suppression) (e : Enforce) (found : List α) : List α :=
  if s.drops e then [] else found

theorem forall₂_keep {α β : Type} {R : α → β → Prop} {found : List α} {kept : List β}
    (h : List.Forall₂ R found kept) (s : Suppression) (e : Enforce) :
    List.Forall₂ R (s.keep e found) (s.keep e kept) := by
  unfold keep
  split
  · exact .nil
  · exact h

section Keep

variable {α : Type} (post inline normal pre : List α)

/-- Of a chain the request that suppresses automatically keeps what comes
first, down to the inline loaders. -/
theorem keep_automatic :
    automatic.keep .post post ++ inline ++ automatic.keep .normal normal ++ automatic.keep .pre pre
      = post ++ inline := by
  show post ++ inline ++ [] ++ [] = post ++ inline
  rw [List.append_nil, List.append_nil]

theorem keep_everything :
    everything.keep .post post ++ inline ++ everything.keep .normal normal
      ++ everything.keep .pre pre = inline := by
  show [] ++ inline ++ [] ++ [] = inline
  rw [List.nil_append, List.append_nil, List.append_nil]

end Keep

theorem counts_nothing (effect : RuleEffect) : Suppression.nothing.counts effect = true := by
  cases effect with
  | setting key value => rfl
  | use loader e => cases e <;> rfl
  | malformedUse loader found e => cases e <;> rfl

theorem counted_nothing (effects : List RuleEffect) :
    Suppression.nothing.counted effects = effects :=
  List.filter_eq_self.2 fun effect _ => counts_nothing effect

end Suppression

/-- Effects that can be sorted can be when some of them are suppressed. -/
theorem Buckets.exists_ofEffects {effects : List RuleEffect} {b : Buckets}
    (h : ofEffects .nothing effects = .ok b) (s : Suppression) :
    ∃ b', ofEffects s effects = .ok b' := by
  have hnone : effects.filterMap RuleEffect.malformed? = [] := by
    have := failure?_ofEffects .nothing effects
    rw [h, Suppression.counted_nothing] at this
    exact List.head?_eq_none_iff.1 this.symm
  rw [← failure?_eq_none_iff, failure?_ofEffects, List.head?_eq_none_iff,
    List.filterMap_eq_nil_iff]
  intro effect he
  exact List.filterMap_eq_nil_iff.1 hnone effect (List.mem_filter.1 he).1

/-! ## Chains with fewer rule loaders -/

namespace Setup

variable {s : Setup} {info : ContextInfo}

/-- The loaders that effects add at each position, whether or not they
count, as they are found. -/
structure RuleLoaders (s : Setup) (info : ContextInfo) (effects : List RuleEffect)
    (post normal pre : List ResolvedLoader) : Prop where
  post : List.Forall₂ (s.Finds info s.context) (effects.filterMap (RuleEffect.loaderAt? .post)) post
  normal : List.Forall₂ (s.Finds info s.context)
    (effects.filterMap (RuleEffect.loaderAt? .normal)) normal
  pre : List.Forall₂ (s.Finds info s.context) (effects.filterMap (RuleEffect.loaderAt? .pre)) pre

/-- A chain of a request that suppresses nothing, and with it the chain of
the same request under any suppression. -/
theorem assemble_suppressed {parsed : Request} (hnothing : parsed.suppression = .nothing)
    {inline : List ResolvedLoader} {resource : String} {data : Option Json} {c : Chain}
    (h : s.assemble info parsed inline resource data = .ok c) :
    ∃ post normal pre, s.RuleLoaders info (s.effects info parsed resource) post normal pre
      ∧ c.resource = resource ∧ c.loaders = post ++ inline ++ normal ++ pre
      ∧ ∀ suppression : Suppression,
        s.assemble info { parsed with suppression } inline resource data
          = .ok { c with
              loaders := suppression.keep .post post ++ inline
                ++ suppression.keep .normal normal ++ suppression.keep .pre pre
              parsed := { c.parsed with suppression } } := by
  obtain ⟨b, hb⟩ : ∃ b, Buckets.ofEffects .nothing (s.effects info parsed resource) = .ok b := by
    obtain ⟨b, hb, -⟩ := bind_eq_ok_iff.1 h
    exact ⟨b, hnothing ▸ hb⟩
  obtain ⟨post, normal, pre, hpost, hnormal, hpre, rfl⟩ := assemble_eq_ok h
  rw [hnothing] at hpost hnormal hpre
  refine ⟨post, normal, pre, ⟨hpost, hnormal, hpre⟩, rfl, rfl, fun suppression => ?_⟩
  obtain ⟨b', hb'⟩ := Buckets.exists_ofEffects hb suppression
  exact assemble_of_finds hb' (Suppression.forall₂_keep hpost suppression .post)
    (Suppression.forall₂_keep hnormal suppression .normal)
    (Suppression.forall₂_keep hpre suppression .pre) inline data

/-- A chain of a request that suppresses nothing, and with it the chains of
all requests that differ from it in their suppression. -/
theorem resolve_suppressed {r : ImportRequest} {c : Chain}
    (hnothing : (Request.parse r.context r.request).suppression = .nothing)
    (hc : s.resolve r = .ok (.chain c)) :
    ∃ post inline normal pre,
      List.Forall₂ (s.Finds r.info r.context) (Request.parse r.context r.request).loaders inline
      ∧ s.RuleLoaders r.info
        (s.effects r.info (Request.parse r.context r.request) c.resource) post normal pre
      ∧ c.loaders = post ++ inline ++ normal ++ pre
      ∧ ∀ (suppression : Suppression) (request : String) (dependencies : List Dependency),
        Request.parse r.context request
            = { Request.parse r.context r.request with suppression } →
          s.resolve { r with request, dependencies }
            = .ok (.chain { c with
                loaders := suppression.keep .post post ++ inline
                  ++ suppression.keep .normal normal ++ suppression.keep .pre pre
                parsed := { c.parsed with suppression } }) := by
  obtain ⟨inline, resource, data, hinline, hresource, hassemble⟩ := resolve_eq_chain hc
  obtain ⟨post, normal, pre, hrules, rfl, hloaders, hany⟩ := assemble_suppressed hnothing hassemble
  refine ⟨post, inline, normal, pre, hinline, hrules, hloaders, ?_⟩
  intro suppression request dependencies hparse
  have hfound : s.findLoaders r.info r.context (Request.parse r.context request).loaders
      = .ok inline := by
    rw [hparse]
    exact findLoaders_eq_ok_iff.2 hinline
  have hthere : s.findResource { r with request, dependencies }
      = .ok (.resolved c.resource data) := by
    unfold findResource
    rw [hparse]
    exact hresource
  refine resolve_of_assemble hfound hthere ?_
  rw [hparse]
  exact hany suppression

end Setup

/-! ## Data with fewer rule loaders -/

section Resolver

variable {σ : Type} {s : Setup} {r : ImportRequest}

/-- A chain splits into the loaders that run last, the inline ones, and two
more groups of rule loaders. A mark leaves out groups of rule loaders, and
all else is as without it. -/
theorem suppressed_of_defaultResolver
    (hmatch : (Request.parse r.context r.request).matchResource = none)
    (hmark : ∀ mark ∈ ["!", "-!", "=!"], ∀ rest, r.request ≠ mark ++ rest)
    {b : Bench σ} {d : ResolvedImport} (hd : (defaultResolver s r b).1 = .ok (some (.data d))) :
    ∃ post inline normal pre,
      List.Forall₂ (s.Finds r.info r.context) (Request.parse r.context r.request).loaders inline
      ∧ s.RuleLoaders r.info (s.rules.exec (Chain.factsOf (Request.parse r.context r.request)
        d.descriptor.resource r.info)) post normal pre
      ∧ d.descriptor.loaders = post ++ inline ++ normal ++ pre
      ∧ ∀ mark kept, (mark, kept) ∈ [("!", post ++ inline), ("-!", post ++ inline), ("!!", inline)] →
        ∀ (dependencies : List Dependency) (b' : Bench σ),
          (b' = b ∨ (defaultResolver s r b).2.KeptIn b') →
          ∃ d' b'', defaultResolver s { r with request := mark ++ r.request, dependencies } b'
              = (.ok (some (.data d')), b'')
            ∧ d'.descriptor.loaders = kept
            ∧ d'.descriptor.resource = d.descriptor.resource
            ∧ d'.descriptor.resourcePath = d.descriptor.resourcePath
            ∧ d'.descriptor.resourceQuery = d.descriptor.resourceQuery
            ∧ d'.descriptor.userRequest = d.descriptor.userRequest
            ∧ d'.descriptor.settings = d.descriptor.settings
            ∧ d'.descriptor.moduleType = d.descriptor.moduleType
            ∧ d'.descriptor.resolveOptions = d.descriptor.resolveOptions := by
  obtain ⟨hbang, hdash, hmarker⟩ := Request.unmarked_toList hmark
  have hparse := Request.parse_mark_append hmatch hbang hdash
  have hnothing : (Request.parse r.context r.request).suppression = .nothing := by
    have hself := congrArg Request.suppression (hparse .nothing)
    rwa [show Suppression.nothing.mark ++ r.request = r.request from String.empty_append] at hself
  obtain ⟨c, p, g, hc, rfl⟩ := defaultResolver_eq_data hd
  obtain ⟨post, inline, normal, pre, hinline, hrules, hloaders, hany⟩ :=
    Setup.resolve_suppressed hnothing hc
  refine ⟨post, inline, normal, pre, hinline, hrules, hloaders, ?_⟩
  intro mark kept hmarked dependencies b' hb
  -- each of the three is read as the request under another suppression
  obtain ⟨suppression, hread, hkept⟩ : ∃ suppression : Suppression,
      Request.parse r.context (mark ++ r.request)
        = { Request.parse r.context r.request with suppression }
      ∧ suppression.keep .post post ++ inline ++ suppression.keep .normal normal
        ++ suppression.keep .pre pre = kept := by
    simp only [List.mem_cons, List.not_mem_nil, or_false, Prod.mk.injEq] at hmarked
    rcases hmarked with ⟨rfl, rfl⟩ | ⟨rfl, rfl⟩ | ⟨rfl, rfl⟩
    · exact ⟨.automatic, hparse .automatic, Suppression.keep_automatic post inline normal pre⟩
    · exact ⟨.automatic, Request.parse_dash_append hmatch hbang hdash hmarker,
        Suppression.keep_automatic post inline normal pre⟩
    · exact ⟨.everything, hparse .everything, Suppression.keep_everything post _ normal pre⟩
  have hresolve := hany suppression _ dependencies hread
  rw [hkept] at hresolve
  obtain ⟨p', g', b'', hgives⟩ := defaultResolver_eq_data_of_chain hresolve
    (equipFailures_of_defaultResolver hc hd hb)
  exact ⟨_, b'', hgives, rfl, rfl, rfl, rfl, rfl, rfl, rfl, rfl⟩

end Resolver

/-- A stylesheet with loaders of its own, whose names could be taken for
marks. -/
def dashedRequest : ImportRequest :=
  { context := "/app/src", request := "-x!=y!./b.css", dependencies := [] }

/-- A mark is told apart from the names that follow it, on a bench that has
been used as well. -/
theorem suppressed_of_dashedRequest :
    ∃ d d' d'' b' b'' rest,
      (defaultResolver layeredSetup dashedRequest builtinBench).1 = .ok (some (.data d))
      ∧ d.descriptor.loaders.map ResolvedLoader.toIdent
        = ["/app/a-loader?x", "/app/b-loader??ref--0-1", "/app/src/-x", "/app/src/=y",
          "/app/c-loader", "/app/d-loader"]
      ∧ defaultResolver layeredSetup { dashedRequest with request := "-!" ++ dashedRequest.request }
          builtinBench = (.ok (some (.data d')), b')
      ∧ d.descriptor.loaders = d'.descriptor.loaders ++ rest
      ∧ d'.descriptor.userRequest = d.descriptor.userRequest
      ∧ defaultResolver layeredSetup { dashedRequest with request := "!!" ++ dashedRequest.request }
          (defaultResolver layeredSetup layeredRequest
            (defaultResolver layeredSetup dashedRequest builtinBench).2).2
        = (.ok (some (.data d'')), b'')
      ∧ List.Forall₂ (layeredSetup.Finds {} "/app/src")
        [⟨"-x", .absent, none⟩, ⟨"=y", .absent, none⟩] d''.descriptor.loaders
      ∧ d''.descriptor.settings = d.descriptor.settings := by
  have hgives : ((defaultResolver layeredSetup dashedRequest builtinBench).1.toOption.bind
      fun found => found.bind Resolved.descriptor?).map
        (fun descriptor => descriptor.loaders.map ResolvedLoader.toIdent)
      = some ["/app/a-loader?x", "/app/b-loader??ref--0-1", "/app/src/-x", "/app/src/=y",
          "/app/c-loader", "/app/d-loader"] := by decide +kernel
  have hmark : ∀ mark ∈ ["!", "-!", "=!"], ∀ rest, dashedRequest.request ≠ mark ++ rest := by
    intro mark hm rest he
    have hchars := congrArg String.toList he
    rw [String.toList_append] at hchars
    simp only [List.mem_cons, List.not_mem_nil, or_false] at hm
    rcases hm with rfl | rfl | rfl <;> exact absurd hchars (by simp [dashedRequest])
  obtain ⟨d, hd, hidents⟩ := Resolved.exists_data_of_descriptor? hgives
  obtain ⟨post, inline, normal, pre, hinline, -, hloaders, hmarked⟩ :=
    suppressed_of_defaultResolver (by decide) hmark hd
  obtain ⟨d', b', hdash, hd', -, -, -, huser, -⟩ :=
    hmarked "-!" (post ++ inline) (by simp) [] builtinBench (Or.inl rfl)
  obtain ⟨d'', b'', hbangs, hd'', -, -, -, -, hsettings, -⟩ :=
    hmarked "!!" inline (by simp) [] _
      (Or.inr (Bench.defaultResolver_keeps layeredSetup layeredRequest _))
  refine ⟨d, d', d'', b', b'', normal ++ pre, hd, hidents, hdash, ?_, huser, hbangs, ?_, hsettings⟩
  · rw [hloaders, hd', List.append_assoc]
  · rw [hd'']
    exact hinline

end ImportChain
