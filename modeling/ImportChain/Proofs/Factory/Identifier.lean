/-
ImportChain.Proofs.Factory.Identifier — which modules an identifier tells
apart.

The identifier of a module is its printed chain. A chain is read back from
it loader by loader, up to structured options, of which only the identity
is printed; these come from the rules, under that identity
(`Setup.registered_of_resolve`). Hence two modules with one identifier have
one chain where printing loses nothing else (`eq_of_identifier_eq`):
identities have to lead to one set of options each, and what is printed
has to be `Legible`.

Nothing sees to either when rules are made ready. A query that a rule gives
as a text may begin with `?`, and is then printed as an identity is
(`identifier_shared_by_styledRules`).
-/
import ImportChain.Proofs.Chain.Compound
import ImportChain.Proofs.Factory.Untapped

namespace ImportChain

open Outcome Text

/-! ## Options and where they come from -/

/-- Whether every identity of a rule list leads to one set of options. -/
def Rule.Unambiguous (rules : List Rule) : Prop :=
  ∀ ident fields fields', (ident, fields) ∈ registrations rules →
    (ident, fields') ∈ registrations rules → fields = fields'

/-- Whether structured options are what an identity was registered with. -/
def LoaderOptions.RegisteredIn (rules : List Rule) (options : LoaderOptions)
    (ident : Option String) : Prop :=
  ∀ fields, options = .structured fields →
    ∃ name, ident = some name ∧ (name, fields) ∈ Rule.registrations rules

/-- What is found for a loader has the options that the loader was given, or
those that its identity was registered with. -/
theorem LoaderSpec.registeredIn_resolved {rules : List Rule} {set : RuleSet}
    (hrules : RuleSet.compile rules = .ok set) {spec : LoaderSpec}
    (hspec : spec.options.RegisteredIn rules spec.ident) {delegate : Delegate} {info : ContextInfo}
    {context : String} {options : Json} {loader : ResolvedLoader}
    (h : spec.ResolvesTo delegate set info context options loader) :
    loader.options.RegisteredIn rules loader.ident := by
  obtain ⟨place, data, given, -, hgiven, -, hoptions, hident⟩ := h
  intro fields hf
  rw [hident]
  rw [hoptions] at hf
  obtain rfl : given = .structured fields := by
    split at hf
    · exact hf
    · have hquery := LoaderOptions.identified_ofQuery (Request.splitQuery place).2
      rw [hf] at hquery
      cases hquery
  obtain ⟨name, opts, ident⟩ := spec
  cases opts with
  | inline query => cases hgiven
  | structured fields' =>
    cases hgiven
    exact hspec fields rfl
  | absent =>
    cases ident with
    | none => cases hgiven
    | some ident =>
      obtain ⟨fields', hfound, he⟩ := Option.map_eq_some_iff.1 hgiven
      cases he
      obtain ⟨earlier, later, hsplit, -⟩ := (RuleSet.options?_eq_some_iff hrules).1 hfound
      exact ⟨ident, rfl, by rw [hsplit]; simp⟩

/-- All structured options of a chain come from the rules, under the identity
that comes with them. -/
theorem Setup.registered_of_resolve {s : Setup} {rules : List Rule}
    (hrules : RuleSet.compile rules = .ok s.rules) {r : ImportRequest} {c : Chain}
    (h : s.resolve r = .ok (.chain c)) :
    ∀ loader ∈ c.loaders, loader.options.RegisteredIn rules loader.ident := by
  intro loader hl
  obtain ⟨context, spec, hspec, hwritten | ⟨facts, e, hused⟩⟩ := exists_spec_of_mem_loaders h hl
  · refine LoaderSpec.registeredIn_resolved hrules (fun fields hf => ?_) hspec
    obtain ⟨segment, rfl⟩ := Request.exists_ofChars_of_mem_parse hwritten
    exact absurd hf (LoaderSpec.options_ofChars_ne_structured segment fields)
  · exact LoaderSpec.registeredIn_resolved hrules
      (fun fields hf => RuleSet.mem_registrations_of_use_mem_exec hrules hused hf) hspec

/-! ## Loaders as printed -/

namespace ResolvedLoader

/-- Whether a printed loader is one segment, and its query not taken for an
identity. -/
structure Legible (loader : ResolvedLoader) : Prop where
  segment : '!' ∉ loader.toIdent.toList
  query : ∀ query, loader.options = .inline query → query.toList.head? ≠ some '?'

/-- A loader of a chain whose printed form is legible. -/
structure Readable (rules : List Rule) (loader : ResolvedLoader) : Prop where
  regular : loader.Regular
  registered : loader.options.RegisteredIn rules loader.ident
  legible : loader.Legible

variable {rules : List Rule} {loader loader' : ResolvedLoader}

/-- A loader is what its printed form writes, with the options that its
identity leads to. -/
theorem eq_of_asWritten_eq (hrules : Rule.Unambiguous rules) (h : loader.Readable rules)
    (h' : loader'.Readable rules) (hw : loader.asWritten = loader'.asWritten) :
    loader = loader' := by
  obtain ⟨path, opts, ident⟩ := loader
  obtain ⟨path', opts', ident'⟩ := loader'
  obtain ⟨⟨-, hopts⟩, hregistered, -⟩ := h
  obtain ⟨⟨-, hopts'⟩, hregistered', -⟩ := h'
  cases hopts with
  | absent =>
    cases hopts' with
    | absent =>
      cases hw
      rfl
    | inline _ => cases hw
    | structured fields' ident' => cases hw
  | inline _ =>
    cases hopts' with
    | absent => cases hw
    | inline _ =>
      cases hw
      rfl
    | structured fields' ident' => cases hw
  | structured fields ident =>
    cases hopts' with
    | absent => cases hw
    | inline _ => cases hw
    | structured fields' ident' =>
      cases hw
      obtain ⟨name, hname, hmem⟩ := hregistered fields rfl
      obtain ⟨name', hname', hmem'⟩ := hregistered' fields' rfl
      cases hname
      cases hname'
      rw [hrules ident fields fields' hmem hmem']

theorem eq_of_toIdent_eq (hrules : Rule.Unambiguous rules) (h : loader.Readable rules)
    (h' : loader'.Readable rules) (he : loader.toIdent.toList = loader'.toIdent.toList) :
    loader = loader' := by
  refine eq_of_asWritten_eq hrules h h' ?_
  rw [← ofChars_toIdent h.regular h.legible.query, ← ofChars_toIdent h'.regular h'.legible.query, he]

end ResolvedLoader

/-! ## Chains as printed -/

namespace Chain

theorem eq_of_segments_eq {rules : List Rule} (hrules : Rule.Unambiguous rules) :
    ∀ {loaders loaders' : List ResolvedLoader}, (∀ loader ∈ loaders, loader.Readable rules) →
      (∀ loader ∈ loaders', loader.Readable rules) → segments loaders = segments loaders' →
      loaders = loaders'
  | [], [], _, _, _ => rfl
  | [], _ :: _, _, _, he => by cases he
  | _ :: _, [], _, _, he => by cases he
  | loader :: rest, loader' :: rest', h, h', he => by
      obtain ⟨hfirst, hrest⟩ := List.cons.inj he
      rw [List.forall_mem_cons] at h h'
      rw [ResolvedLoader.eq_of_toIdent_eq hrules h.1 h'.1 hfirst,
        eq_of_segments_eq hrules h.2 h'.2 hrest]

/-- A printed chain is taken apart at each `!`. -/
theorem splitOn_compound {loaders : List ResolvedLoader} {resource : String}
    (h : ∀ loader ∈ loaders, loader.Legible) (hr : '!' ∉ resource.toList) :
    splitOn '!' (compound loaders resource).toList = segments loaders ++ [resource.toList] := by
  rw [toList_compound]
  refine splitOn_linked hr fun segment hs => ?_
  obtain ⟨loader, hl, rfl⟩ := List.mem_map.1 hs
  exact (h loader hl).segment

theorem eq_of_compound_eq {rules : List Rule} (hrules : Rule.Unambiguous rules)
    {loaders loaders' : List ResolvedLoader} {resource resource' : String}
    (h : ∀ loader ∈ loaders, loader.Readable rules)
    (h' : ∀ loader ∈ loaders', loader.Readable rules)
    (hr : '!' ∉ resource.toList) (hr' : '!' ∉ resource'.toList)
    (he : compound loaders resource = compound loaders' resource') :
    resource = resource' ∧ loaders = loaders' := by
  have hsplit : segments loaders ++ [resource.toList] = segments loaders' ++ [resource'.toList] := by
    rw [← splitOn_compound (fun loader hl => (h loader hl).legible) hr,
      ← splitOn_compound (fun loader hl => (h' loader hl).legible) hr', he]
  obtain ⟨hsegments, hlast⟩ := List.append_inj' hsplit rfl
  exact ⟨String.toList_inj.1 (List.singleton_inj.1 hlast), eq_of_segments_eq hrules h h' hsegments⟩

end Chain

/-! ## Modules -/

/-- Whether the identifier of a module can be taken apart again. -/
structure ModuleDescriptor.Legible (d : ModuleDescriptor) : Prop where
  loaders : ∀ loader ∈ d.loaders, loader.Legible
  resource : '!' ∉ d.resource.toList

namespace Factory

variable {σ : Type} {s : FactorySetup} {rules : List Rule}

/-- Two modules of a factory that have one identifier have one chain, if all
identities lead to one set of options and the identifier of either can be
taken apart. -/
theorem eq_of_identifier_eq (hrules : RuleSet.compile rules = .ok s.rules)
    (hnames : Rule.Unambiguous rules) {f f' : Factory σ} (hf : Session s f) (hf' : Session s f')
    {alive alive' : Nat → Bool} {r r' : ImportRequest} {m m' : Shared Module}
    (hm : (create s alive r f).1 = .ok (some m))
    (hm' : (create s alive' r' f').1 = .ok (some m'))
    {d d' : ModuleDescriptor} (hd : m.value = .normal d) (hd' : m'.value = .normal d')
    (hl : d.Legible) (hl' : d'.Legible) (hidentifier : m.value.identifier = m'.value.identifier) :
    d.resource = d'.resource ∧ d.loaders = d'.loaders := by
  have hmakes := hf.makes_of_create hm
  have hmakes' := hf'.makes_of_create hm'
  rw [hd] at hmakes hidentifier
  rw [hd'] at hmakes' hidentifier
  obtain ⟨q, c, p, g, hc, rfl⟩ := hmakes
  obtain ⟨q', c', p', g', hc', rfl⟩ := hmakes'
  have hreadable : ∀ loader ∈ c.loaders, loader.Readable rules := fun loader hmem =>
    ⟨Setup.regular_of_resolve hrules hc loader hmem,
      Setup.registered_of_resolve hrules hc loader hmem, hl.loaders loader hmem⟩
  have hreadable' : ∀ loader ∈ c'.loaders, loader.Readable rules := fun loader hmem =>
    ⟨Setup.regular_of_resolve hrules hc' loader hmem,
      Setup.registered_of_resolve hrules hc' loader hmem, hl'.loaders loader hmem⟩
  exact Chain.eq_of_compound_eq hnames hreadable hreadable' hl.resource hl'.resource hidentifier

/-- A factory with nothing but the built-in parsers and generators. -/
def plainFactory : Factory Unit := (Factory.new ()).withBuiltins

theorem session_plainFactory (s : FactorySetup) : Session s plainFactory :=
  .start ⟨⟨rfl, rfl, rfl, rfl⟩, rfl, rfl⟩ rfl

/-- The loaders and the resource of a module that a call gives, with its
identifier. -/
def chainOf? (result : Except FactoryError (Option (Shared Module))) :
    Option (List ResolvedLoader × String × String) :=
  match result with
  | .ok (some ⟨_, .normal d⟩) => some (d.loaders, d.resource, d.request)
  | _ => none

theorem exists_normal_of_chainOf? {result : Except FactoryError (Option (Shared Module))}
    {loaders : List ResolvedLoader} {resource identifier : String}
    (h : chainOf? result = some (loaders, resource, identifier)) :
    ∃ m d, result = .ok (some m) ∧ m.value = .normal d ∧ d.loaders = loaders
      ∧ d.resource = resource ∧ m.value.identifier = identifier := by
  unfold chainOf? at h
  split at h
  · next serial d =>
    cases h
    exact ⟨_, d, rfl, rfl, rfl, rfl, rfl⟩
  · cases h

/-- Everything that anchored loaders make is remembered. -/
def anchoredFactorySetup : FactorySetup := { anchoredSetup with accepts := fun _ => true }

def sheetEdge : ImportRequest := { sheetRequest with dependencies := [⟨0, 0, sheetRequest.request⟩] }

/-- A request of what `sheetEdge` leads to. -/
def sheetCompound : String :=
  "/app/a-loader?x!/app/b-loader??ref--0-1!/app/src/y-loader?z!/app/c-loader!/app/d-loader"
    ++ "!/app/src/./b.css"

def compoundEdge : ImportRequest :=
  { context := "/app", request := "!!" ++ sheetCompound, dependencies := [⟨8, 1, "!!" ++ sheetCompound⟩] }

def sheetLoaders : List ResolvedLoader :=
  [⟨"/app/a-loader", .inline "x", none⟩, ⟨"/app/b-loader", .structured [], some "ref--0-1"⟩,
    ⟨"/app/src/y-loader", .inline "z", none⟩, ⟨"/app/c-loader", .absent, none⟩,
    ⟨"/app/d-loader", .absent, none⟩]

theorem legible_sheetLoaders : ∀ loader ∈ sheetLoaders, loader.Legible := by
  unfold sheetLoaders
  simp only [List.forall_mem_cons]
  refine ⟨⟨by decide, ?_⟩, ⟨by decide, nofun⟩, ⟨by decide, ?_⟩, ⟨by decide, nofun⟩,
    ⟨by decide, nofun⟩, by simp⟩
  · rintro _ ⟨⟩
    decide
  · rintro _ ⟨⟩
    decide

/-- A module is asked for by its identifier, in another directory. -/
theorem eq_of_identifier_eq_of_compoundEdge :
    ∃ m m' d d', (create anchoredFactorySetup (fun _ => true) sheetEdge plainFactory).1 = .ok (some m)
      ∧ (create anchoredFactorySetup (fun _ => true) compoundEdge
          (create anchoredFactorySetup (fun _ => true) sheetEdge plainFactory).2).1 = .ok (some m')
      ∧ m.value = .normal d ∧ m'.value = .normal d' ∧ m.value.identifier = sheetCompound
      ∧ m'.value.identifier = sheetCompound ∧ d.resource = d'.resource ∧ d.loaders = d'.loaders := by
  have hfirst : chainOf? (create anchoredFactorySetup (fun _ => true) sheetEdge plainFactory).1
      = some (sheetLoaders, "/app/src/./b.css", sheetCompound) := by decide +kernel
  have hsecond : chainOf? (create anchoredFactorySetup (fun _ => true) compoundEdge
      (create anchoredFactorySetup (fun _ => true) sheetEdge plainFactory).2).1
      = some (sheetLoaders, "/app/src/./b.css", sheetCompound) := by decide +kernel
  have hnames : Rule.Unambiguous layeredRules := by
    have hregistrations : Rule.registrations layeredRules = [("ref--0-1", [])] := by decide +kernel
    intro ident fields fields' hmem hmem'
    rw [hregistrations] at hmem hmem'
    cases List.mem_singleton.1 hmem
    cases List.mem_singleton.1 hmem'
    rfl
  obtain ⟨m, d, hm, hd, hl, hr, hid⟩ := exists_normal_of_chainOf? hfirst
  obtain ⟨m', d', hm', hd', hl', hr', hid'⟩ := exists_normal_of_chainOf? hsecond
  have hlegible : d.Legible := ⟨by rw [hl]; exact legible_sheetLoaders, by rw [hr]; decide⟩
  have hlegible' : d'.Legible := ⟨by rw [hl']; exact legible_sheetLoaders, by rw [hr']; decide⟩
  have hsession := session_plainFactory anchoredFactorySetup
  exact ⟨m, m', d, d', hm, hm', hd, hd', hid, hid', eq_of_identifier_eq compile_layeredRules hnames
    hsession (hsession.call _ sheetEdge) hm hm' hd hd' hlegible hlegible' (hid.trans hid'.symm)⟩

/-- Rules for the imports of two scripts. The second gives a query that is
printed as the identity of the first. -/
def styledRules : List Rule :=
  [⟨{ issuer := some (.beginsWith "/app/one.js"), loader := some "css-loader",
      options := some (.obj [("modules", .bool true)]) }, [], []⟩,
   ⟨{ issuer := some (.beginsWith "/app/two.js"), loader := some "css-loader",
      options := some (.str "?ref--0") }, [], []⟩]

def styledSetup : FactorySetup :=
  { context := "/app"
    rules := (RuleSet.compile styledRules).toOption.getD .empty
    delegate := fun call =>
      .ok (.resolved (if call.kind = .loader then "/l/css.js" else "/app/a.css") none)
    accepts := fun _ => true }

/-- An import of a stylesheet by a script. -/
def styledEdge (serial : Nat) (issuer : String) : ImportRequest :=
  { request := "./a.css", info := { issuer := some issuer }
    dependencies := [⟨8 * serial, serial, "./a.css"⟩] }

/-- Two modules with one identifier and one resource, and with other options
for their one loader: no hook is tapped, and the identities of the rules
differ. -/
theorem identifier_shared_by_styledRules :
    RuleSet.compile styledRules = .ok styledSetup.rules
      ∧ Rule.Unambiguous styledRules
      ∧ Session styledSetup plainFactory
      ∧ ∃ m m' d d',
        (create styledSetup (fun _ => true) (styledEdge 0 "/app/one.js") plainFactory).1
          = .ok (some m)
        ∧ (create styledSetup (fun _ => true) (styledEdge 1 "/app/two.js")
            (create styledSetup (fun _ => true) (styledEdge 0 "/app/one.js") plainFactory).2).1
          = .ok (some m')
        ∧ m.value = .normal d ∧ m'.value = .normal d'
        ∧ m.value.identifier = m'.value.identifier
        ∧ d.loaders = [⟨"/l/css.js", .structured [("modules", .bool true)], some "ref--0"⟩]
        ∧ d'.loaders = [⟨"/l/css.js", .inline "?ref--0", none⟩] := by
  have hfirst : chainOf?
      (create styledSetup (fun _ => true) (styledEdge 0 "/app/one.js") plainFactory).1
      = some ([⟨"/l/css.js", .structured [("modules", .bool true)], some "ref--0"⟩], "/app/a.css",
        "/l/css.js??ref--0!/app/a.css") := by decide +kernel
  have hsecond : chainOf? (create styledSetup (fun _ => true) (styledEdge 1 "/app/two.js")
      (create styledSetup (fun _ => true) (styledEdge 0 "/app/one.js") plainFactory).2).1
      = some ([⟨"/l/css.js", .inline "?ref--0", none⟩], "/app/a.css",
        "/l/css.js??ref--0!/app/a.css") := by decide +kernel
  obtain ⟨m, d, hm, hd, hl, -, hid⟩ := exists_normal_of_chainOf? hfirst
  obtain ⟨m', d', hm', hd', hl', -, hid'⟩ := exists_normal_of_chainOf? hsecond
  refine ⟨?_, ?_, session_plainFactory _, m, m', d, d', hm, hm', hd, hd', hid.trans hid'.symm, hl, hl'⟩
  · exact RuleSet.compile_of_isSome (by decide +kernel)
  · have hregistrations : Rule.registrations styledRules
        = [("ref--0", [("modules", .bool true)])] := by decide +kernel
    intro ident fields fields' hmem hmem'
    rw [hregistrations] at hmem hmem'
    cases List.mem_singleton.1 hmem
    cases List.mem_singleton.1 hmem'
    rfl

end Factory

end ImportChain
