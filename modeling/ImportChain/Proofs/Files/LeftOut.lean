/-
ImportChain.Proofs.Files.LeftOut — exactly when a request is left out.

Three parties can leave a request out: the alias that applies to it, the
package of the importer, by the name of the module, and the package that
owns the file it leads to, by the location of that file (`IsLeftOut`).
Whatever way leads to that file (`LeadsTo`), it is settled alike.

`left_out_exactly` is the main statement: so it is for every question, asked
of a disk or of a resolver that remembers earlier answers, and never for a
loader, since loaders are sought without aliases and `browser` maps.
-/
import ImportChain.Chain
import ImportChain.Proofs.Files.Packages
import ImportChain.Proofs.Files.Recall
import ImportChain.Proofs.Loader.Search

namespace ImportChain

namespace Search

variable {v : View} {l : Lookup} {kind : ResolverKind} {options : Json}
  {context request place : String} {found : Found}

/-! ## Where a request leads -/

/-- The file that a request leads to, if no alias changes it: at a place beside
the context, at a place from the root, or in the nearest usable package. -/
inductive LeadsTo (v : View) (l : Lookup) (context request place : String) : Prop where
  | dotted (begins : isDotted request = true)
    (first : v.FirstFile (candidates v l (Location.join context request)) place)
  | absolute (plain : isDotted request = false) (begins : Path.isAbsolute request.toList = true)
    (first : v.FirstFile (candidates v l request) place)
  | packaged {dir : String} (plain : isDotted request = false)
    (relative : Path.isAbsolute request.toList = false)
    (nearest : Earliest (Usable v l (.ofText request)) (Location.ancestors context) dir)
    (file : PackageFile v l (.ofText request) dir place)

theorem leadsTo_iff_of_dotted (h : isDotted request = true) :
    LeadsTo v l context request place
      ↔ v.FirstFile (candidates v l (Location.join context request)) place := by
  constructor
  · rintro (⟨-, hfirst⟩ | ⟨hplain, -, -⟩ | ⟨hplain, -, -, -⟩)
    · exact hfirst
    all_goals cases h.symm.trans hplain
  · exact .dotted h

theorem leadsTo_iff_of_absolute (h : isDotted request = false)
    (hroot : Path.isAbsolute request.toList = true) :
    LeadsTo v l context request place ↔ v.FirstFile (candidates v l request) place := by
  constructor
  · rintro (⟨hdotted, -⟩ | ⟨-, -, hfirst⟩ | ⟨-, hrelative, -, -⟩)
    · cases h.symm.trans hdotted
    · exact hfirst
    · cases hroot.symm.trans hrelative
  · exact .absolute h hroot

theorem leadsTo_iff_of_bare (h : isDotted request = false)
    (hrelative : Path.isAbsolute request.toList = false) :
    LeadsTo v l context request place
      ↔ ∃ dir, Earliest (Usable v l (.ofText request)) (Location.ancestors context) dir
          ∧ PackageFile v l (.ofText request) dir place := by
  constructor
  · rintro (⟨hdotted, -⟩ | ⟨-, hroot, -⟩ | ⟨-, -, hnearest, hfile⟩)
    · cases h.symm.trans hdotted
    · cases hrelative.symm.trans hroot
    · exact ⟨_, hnearest, hfile⟩
  · rintro ⟨dir, hnearest, hfile⟩
    exact .packaged h hrelative hnearest hfile

/-- A request that no alias changes gives what the file gives that it leads
to. -/
theorem direct_eq_ok_iff (h : v.CanonicalFiles) :
    direct v l context request = .ok found
      ↔ ∃ place, LeadsTo v l context request place ∧ Gives v l place found := by
  unfold direct
  by_cases hdotted : isDotted request = true
  · simp only [if_pos hdotted, atPlace_eq_ok_iff, leadsTo_iff_of_dotted hdotted]
  rw [if_neg hdotted]
  rw [Bool.not_eq_true] at hdotted
  by_cases hroot : Path.isAbsolute request.toList = true
  · simp only [if_pos hroot, atPlace_eq_ok_iff, leadsTo_iff_of_absolute hdotted hroot]
  rw [if_neg hroot, bare_eq_ok_iff h]
  rw [Bool.not_eq_true] at hroot
  simp only [leadsTo_iff_of_bare hdotted hroot]
  constructor
  · rintro ⟨dir, hnearest, place, hfile, hgives⟩
    exact ⟨place, ⟨dir, hnearest, hfile⟩, hgives⟩
  · rintro ⟨place, ⟨dir, hnearest, hfile⟩, hgives⟩
    exact ⟨dir, hnearest, place, hfile, hgives⟩

/-! ## Who leaves a request out -/

theorem isBare_iff :
    isBare request = true
      ↔ request.toList.head? ≠ some '.' ∧ Path.isAbsolute request.toList = false := by
  unfold isBare Path.isAbsolute
  cases request.toList with
  | nil => simp
  | cons c rest =>
    by_cases hdot : c = '.'
    · simp [hdot]
    by_cases hslash : c = '/'
    · simp [hslash]
    · simp [hdot, hslash]

/-- An alias leaves a request out: the one that applies has `false` for a
target. -/
def LeftOutByAlias (options : Json) (request : String) : Prop :=
  ∃ name rest, ShortestAlias options request name rest (.bool false)

/-- The package of the importer leaves a request out: no alias applies, and the
request is the name of a module that its `browser` map sends to `false`. -/
structure LeftOutByImporter (v : View) (l : Lookup) (options : Json) (context request : String) :
    Prop where
  unaliased : AliasGives options request .asWritten
  honored : l.browserMaps = true
  undotted : request.toList.head? ≠ some '.'
  relative : Path.isAbsolute request.toList = false
  mapped : ∃ owner, Manifest.Nearest v context owner
    ∧ Manifest.MapsToFalse v (Manifest.location owner) request

/-- What is sought for a request: what an alias puts in its place, or the request
itself. -/
inductive SoughtAs (options : Json) (request : String) : String → Prop where
  | replaced {target : String} (h : AliasGives options request (.replaced target)) :
    SoughtAs options request target
  | asWritten (h : AliasGives options request .asWritten) : SoughtAs options request request

/-- The package that owns a file leaves it out, and the request leads to that
file. -/
structure LeftOutByOwner (v : View) (l : Lookup) (options : Json) (context request : String) :
    Prop where
  honored : l.browserMaps = true
  mapped : ∃ sought place file, SoughtAs options request sought ∧ LeadsTo v l context sought place
    ∧ v.canonical? place = some file ∧ LeftOut v file

/-- Why a request is left out, the first of three reasons. -/
inductive IsLeftOut (v : View) (l : Lookup) (options : Json) (context request : String) :
    Prop where
  | byAlias (h : LeftOutByAlias options request)
  | byImporter (h : LeftOutByImporter v l options context request)
  | byOwner (noAlias : ¬ LeftOutByAlias options request)
    (noImporter : ¬ LeftOutByImporter v l options context request)
    (h : LeftOutByOwner v l options context request)

/-! ## Searches that end with nothing -/

theorem leftOutByAlias_iff :
    LeftOutByAlias options request ↔ AliasGives options request .ignored := by
  constructor
  · rintro ⟨name, rest, h⟩
    exact .shortest h
  · intro h
    generalize hignored : Aliased.ignored = aliased at h
    cases h with
    | @shortest name rest target hshortest =>
      obtain rfl := Aliased.ofTarget_eq_ignored_iff.1 hignored.symm
      exact ⟨name, rest, hshortest⟩
    | unfit => cases hignored

theorem SoughtAs.unique {sought other : String} (h : SoughtAs options request sought)
    (h' : SoughtAs options request other) : sought = other := by
  rcases h with h | h <;> rcases h' with h' | h' <;> cases h.unique h' <;> rfl

/-- What is sought is not left out by an alias. -/
theorem SoughtAs.not_leftOutByAlias {sought : String} (h : SoughtAs options request sought) :
    ¬ LeftOutByAlias options request := by
  intro hignored
  rw [leftOutByAlias_iff] at hignored
  rcases h with h | h <;> cases h.unique hignored

theorem isBareLeftOut_iff (h : AliasGives options request .asWritten) :
    isBareLeftOut v l context request = true ↔ LeftOutByImporter v l options context request := by
  have hany : isBareLeftOut v l context request
      = (l.browserMaps && isBare request && (Manifest.nearest? v context).any fun manifest =>
          Manifest.leavesOutModule v manifest request) := by
    unfold isBareLeftOut
    cases Manifest.nearest? v context <;> rfl
  rw [hany, Bool.and_eq_true, Bool.and_eq_true, isBare_iff, Manifest.any_nearest?_iff]
  simp only [Manifest.leavesOutModule_iff]
  exact ⟨fun ⟨⟨hhonored, hundotted, hrelative⟩, hmapped⟩ =>
    ⟨h, hhonored, hundotted, hrelative, hmapped⟩,
    fun ⟨_, hhonored, hundotted, hrelative, hmapped⟩ =>
    ⟨⟨hhonored, hundotted, hrelative⟩, hmapped⟩⟩

theorem direct_eq_ignored_iff (h : v.CanonicalFiles) :
    direct v l context request = .ok .ignored
      ↔ l.browserMaps = true ∧ ∃ place file, LeadsTo v l context request place
          ∧ v.canonical? place = some file ∧ LeftOut v file := by
  rw [direct_eq_ok_iff h]
  constructor
  · rintro ⟨place, hleads, hgives⟩
    cases hgives with
    | ignored hcanonical honored hleft => exact ⟨honored, place, _, hleads, hcanonical, hleft⟩
  · rintro ⟨honored, place, file, hleads, hcanonical, hleft⟩
    exact ⟨place, hleads, .ignored hcanonical honored hleft⟩

/-- What is sought for a request is left out exactly if the request is. -/
theorem direct_eq_ignored_iff_isLeftOut (h : v.CanonicalFiles) {sought : String}
    (hsought : SoughtAs options request sought)
    (himporter : ¬ LeftOutByImporter v l options context request) :
    direct v l context sought = .ok .ignored ↔ IsLeftOut v l options context request := by
  rw [direct_eq_ignored_iff h]
  constructor
  · rintro ⟨honored, place, file, hleads, hcanonical, hleft⟩
    exact .byOwner hsought.not_leftOutByAlias himporter
      ⟨honored, sought, place, file, hsought, hleads, hcanonical, hleft⟩
  · rintro (halias | hby | ⟨-, -, honored, other, place, file, hother, hleads, hfile⟩)
    · exact absurd halias hsought.not_leftOutByAlias
    · exact absurd hby himporter
    · obtain rfl := hsought.unique hother
      exact ⟨honored, place, file, hleads, hfile⟩

/-- A search ends with nothing exactly if there is a reason to leave the request
out. -/
theorem search_eq_ignored_iff (h : v.CanonicalFiles) (kind : ResolverKind) :
    search v (.ofOptions kind options) context request = .ok .ignored
      ↔ IsLeftOut v (.ofOptions kind options) options context request := by
  have hgives := aliasGives_ofRequest kind options request
  unfold search
  generalize Aliased.ofRequest request _ = aliased at hgives ⊢
  cases aliased with
  | replaced target =>
    refine direct_eq_ignored_iff_isLeftOut h (.replaced hgives) fun himporter => ?_
    cases himporter.unaliased.unique hgives
  | ignored => exact ⟨fun _ => .byAlias (leftOutByAlias_iff.2 hgives), fun _ => rfl⟩
  | asWritten =>
    by_cases himporter : LeftOutByImporter v (.ofOptions kind options) options context request
    · simp only [if_pos ((isBareLeftOut_iff hgives).2 himporter)]
      exact ⟨fun _ => .byImporter himporter, fun _ => trivial⟩
    · simp only [if_neg (mt (isBareLeftOut_iff hgives).1 himporter)]
      exact direct_eq_ignored_iff_isLeftOut h (.asWritten hgives) himporter

end Search

/-! ## Answers -/

open Search

variable {v : View}

/-- A question is about a request that is left out, whatever query follows. -/
def Call.IsLeftOut (v : View) (call : Call) : Prop :=
  Search.IsLeftOut v (.ofOptions call.kind call.options) call.options call.context
    (Request.splitQuery call.request).1

theorem answer_eq_ignored_iff_search {call : Call} :
    v.answer call = .ok .ignored
      ↔ search v (.ofOptions call.kind call.options) call.context
          (Request.splitQuery call.request).1 = .ok .ignored := by
  simp only [View.answer]
  cases search v (.ofOptions call.kind call.options) call.context
      (Request.splitQuery call.request).1 with
  | error e => simp
  | ok found => cases found <;> simp [Resolution.ofFound]

theorem answer_eq_ignored_iff (h : v.CanonicalFiles) {call : Call} :
    v.answer call = .ok .ignored ↔ call.IsLeftOut v := by
  rw [answer_eq_ignored_iff_search, search_eq_ignored_iff h]
  rfl

/-- Without options, nothing that is sought for a loader is left out. -/
theorem not_isLeftOut_loaderCall {info : ContextInfo} {context request : String} :
    ¬ (loaderCall info context request Setup.loaderOptions).IsLeftOut v := by
  have honored : (Lookup.ofOptions .loader Setup.loaderOptions).browserMaps ≠ true := by decide
  rintro (⟨_, _, hshortest⟩ | himporter | ⟨-, -, howner⟩)
  · cases hshortest.isAlias
  · exact honored himporter.honored
  · exact honored howner.honored

/-- A loader that is not found fails as one of the list. -/
theorem exists_failsAs_of_resolveLoaders {delegate : Delegate} {rules : RuleSet}
    {info : ContextInfo} {context : String} {options : Json} {specs : List LoaderSpec}
    {e : ResolutionError}
    (h : resolveLoaders delegate rules info context options specs = .error (.resolution e)) :
    ∃ spec ∈ specs, spec.FailsAs delegate info context options e := by
  rw [← Outcome.failure?_eq_some_iff, failure?_resolveLoaders] at h
  rcases List.mem_append.1 (List.mem_of_head? h) with hlookup | hsearch
  · obtain ⟨spec, -, hspec⟩ := List.mem_filterMap.1 hlookup
    obtain ⟨_, _, _, he⟩ := LoaderSpec.lookupFailure?_eq_some_iff.1 hspec
    cases he
  · obtain ⟨spec, hmem, hspec⟩ := List.mem_filterMap.1 hsearch
    obtain ⟨_, hfails, he⟩ := LoaderSpec.searchFailure?_eq_some_iff.1 hspec
    cases he
    exact ⟨spec, hmem, hfails⟩

theorem head?_toList_append {s : String} {c : Char} (h : s.toList.head? = some c) (t : String) :
    (s ++ t).toList.head? = some c := by
  rw [String.toList_append, List.head?_append, h, Option.some_or]

/-- How the failures of a search begin. -/
theorem SearchError.head?_text (e : SearchError) :
    e.text.toList.head? = some 'F' ∨ e.text.toList.head? = some 'C' := by
  cases e with
  | noFile => exact .inl (by decide +kernel)
  | notCanonical => exact .inl (by decide +kernel)
  | noPackage name => exact .inr (head?_toList_append (head?_toList_append (by decide +kernel) _) _)

/-- No failure of a disk is that a loader is left out. -/
theorem message_ne_of_answer {call : Call} {e : ResolutionError} (h : v.answer call = .error e)
    (more : String) : e.message ++ more ≠ ignoredLoaderMessage := by
  simp only [View.answer] at h
  cases hsearch : search v (.ofOptions call.kind call.options) call.context
      (Request.splitQuery call.request).1 with
  | ok found =>
    rw [hsearch] at h
    cases h
  | error error =>
    rw [hsearch] at h
    cases h
    intro hsame
    have hloader : ignoredLoaderMessage.toList.head? = some 'L' := by decide +kernel
    rcases error.head?_text with htext | htext
    · cases (head?_toList_append htext more).symm.trans (hsame ▸ hloader)
    · cases (head?_toList_append htext more).symm.trans (hsame ▸ hloader)

theorem message_ne_of_failsAs (h : v.CanonicalFiles) {info : ContextInfo} {context : String}
    {spec : LoaderSpec} {e : ResolutionError}
    (hfails : spec.FailsAs v.answer info context Setup.loaderOptions e) :
    e.message ≠ ignoredLoaderMessage := by
  cases hfails with
  | ignored hanswer => exact absurd ((answer_eq_ignored_iff h).1 hanswer) not_isLeftOut_loaderCall
  | refused hanswer _ =>
    rw [← String.append_empty (s := e.message)]
    exact message_ne_of_answer hanswer ""
  | hinted hanswer _ =>
    rw [String.append_assoc]
    exact message_ne_of_answer hanswer _

/-- **Exactly when a request is left out.** A question is answered by nothing if
an alias, the package of the importer or the package of the file leaves the
request out, and not otherwise, whatever a resolver or its clones were asked
before. Loaders are never left out, so that no failure to find them says
so. -/
theorem left_out_exactly (h : v.CanonicalFiles) :
    (∀ call : Call, v.answer call = .ok .ignored ↔ call.IsLeftOut v)
    ∧ (∀ r log, Resolvers.Session v r log →
      (∀ asked ∈ log, asked.call.options.distinctKeys = true) →
      ∀ asked ∈ log, asked.answer = .ok .ignored ↔ asked.call.IsLeftOut v)
    ∧ (∀ info context request,
      v.answer (loaderCall info context request Setup.loaderOptions) ≠ .ok .ignored)
    ∧ ∀ rules info context specs e,
      resolveLoaders v.answer rules info context Setup.loaderOptions specs
        = .error (.resolution e) → e.message ≠ ignoredLoaderMessage := by
  refine ⟨fun call => answer_eq_ignored_iff h, fun r log hsession hkeys asked hasked => ?_,
    fun info context request hanswer => ?_, fun rules info context specs e hfails => ?_⟩
  · rw [(hsession.answers hkeys).2 asked hasked]
    exact answer_eq_ignored_iff h
  · exact not_isLeftOut_loaderCall ((answer_eq_ignored_iff h).1 hanswer)
  · obtain ⟨spec, -, hspec⟩ := exists_failsAs_of_resolveLoaders hfails
    exact message_ne_of_failsAs h hspec

/-- A package that leaves out a module and a file of its own. -/
def browserDisk : View :=
  .ofTexts ["/p"]
    [("/p/package.json",
        Json.canonical (.obj [("browser", .obj [("fs", .bool false), ("./a.js", .bool false)])])),
      ("/p/a.js", ""), ("/p/b.js", "")]

/-- A question with a number among its options. -/
def browserCall (kind : ResolverKind) (request : String) : Call :=
  ⟨kind, {}, "/p", request, .obj [("alias", .obj [("x", .bool false)]), ("depth", .float 0x3ff8000000000000)]⟩

/-- One resolver, asked the same twice. -/
def browserRun : Resolvers × List Asked :=
  [browserCall .normal "/p/a?v=1", browserCall .normal "/p/a?v=1"].foldl
    (fun (r, log) call =>
      ((r.ask browserDisk 0 call).2, ⟨0, call, (r.ask browserDisk 0 call).1⟩ :: log))
    (Resolvers.create {} 0, [])

theorem left_out_exactly_of_browserDisk :
    browserDisk.CanonicalFiles
    ∧ (browserCall .normal "x/y").IsLeftOut browserDisk
    ∧ (browserCall .normal "fs").IsLeftOut browserDisk
    ∧ (browserCall .normal "/p/a?v=1").IsLeftOut browserDisk
    ∧ ¬ (browserCall .normal "/p/b").IsLeftOut browserDisk
    ∧ ¬ (browserCall .loader "/p/a").IsLeftOut browserDisk
    ∧ Resolvers.Session browserDisk browserRun.1 browserRun.2
    ∧ (∀ asked ∈ browserRun.2, asked.call.options.distinctKeys = true)
    ∧ (∀ asked ∈ browserRun.2, asked.call.IsLeftOut browserDisk)
    ∧ resolveLoaders browserDisk.answer .empty {} "/p" Setup.loaderOptions [{ identifier := "fs" }]
      ≠ .error (.resolution ⟨"fs", "/p", ignoredLoaderMessage⟩) := by
  have hcanonical : browserDisk.CanonicalFiles := View.canonicalFiles_ofTexts _ _
  obtain ⟨hanswer, hasked, -, hloaders⟩ := left_out_exactly hcanonical
  have hcreated : Resolvers.Session browserDisk (Resolvers.create {} 0) [] :=
    Resolvers.Session.start.create (by decide)
  have hsession : Resolvers.Session browserDisk browserRun.1 browserRun.2 :=
    (hcreated.ask List.mem_cons_self (browserCall .normal "/p/a?v=1")).ask List.mem_cons_self
      (browserCall .normal "/p/a?v=1")
  have hkeys : ∀ asked ∈ browserRun.2, asked.call.options.distinctKeys = true := by decide +kernel
  have hignored : ∀ asked ∈ browserRun.2, asked.answer = .ok .ignored := by decide +kernel
  refine ⟨hcanonical, (hanswer _).1 (by decide +kernel), (hanswer _).1 (by decide +kernel),
    (hanswer _).1 (by decide +kernel), mt (hanswer _).2 (by decide +kernel),
    mt (hanswer _).2 (by decide +kernel), hsession, hkeys, fun asked hmem => ?_, fun hfails => ?_⟩
  · exact (hasked _ _ hsession hkeys asked hmem).1 (hignored asked hmem)
  · exact hloaders _ _ _ _ _ hfails rfl

end ImportChain
