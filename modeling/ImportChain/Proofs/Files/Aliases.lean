/-
ImportChain.Proofs.Files.Aliases — the shortest alias decides.

Aliases are tried in key order, and the first whose name fits a request is
taken. Names that fit one request are beginnings of one text, and of two
such names the shorter stands first in key order (`AliasFits.length_le`). So
the alias that is taken is the shortest, whatever other names stand between
(`Earliest.shortestAlias`), and what its target is good for is asked only
then.

`search_shortest_alias` is the main statement.
-/
import ImportChain.Files.Search
import ImportChain.Proofs.Json.Shape
import ImportChain.Proofs.Outcome

namespace ImportChain

/-! ## Names that fit -/

/-- A name is a whole request, or the request goes on after it with a slash. -/
def AliasFits (name rest request : String) : Prop :=
  request = name ++ rest ∧ (rest = "" ∨ ∃ below, rest = "/" ++ below)

section Names

variable {name other rest rest' request : String}

theorem afterAlias?_eq_some_iff :
    afterAlias? name request = some rest ↔ AliasFits name rest request := by
  have hrequest : request = name ++ rest
      ↔ Text.dropStart? name.toList request.toList = some rest.toList := by
    rw [Text.dropStart?_eq_some_iff, ← String.toList_append, String.toList_inj]
  unfold afterAlias? AliasFits
  rw [hrequest]
  cases Text.dropStart? name.toList request.toList with
  | none => simp
  | some after =>
    have hafter : some after = some rest.toList ↔ rest = String.ofList after := by
      rw [Option.some.injEq, ← String.toList_inj, String.toList_ofList, eq_comm]
    rw [hafter]
    rcases after with _ | ⟨c, below⟩
    · constructor
      · rintro ⟨⟩
        exact ⟨rfl, .inl rfl⟩
      · rintro ⟨rfl, -⟩
        rfl
    · by_cases hslash : c = '/'
      · subst hslash
        have hbelow : String.ofList ('/' :: below) = "/" ++ String.ofList below := by
          simp
        constructor
        · rintro ⟨⟩
          exact ⟨rfl, .inr ⟨_, hbelow⟩⟩
        · rintro ⟨rfl, -⟩
          rfl
      · constructor
        · intro h
          split at h <;> simp_all
        · rintro ⟨rfl, h | ⟨more, h⟩⟩
          · simp [← String.toList_inj] at h
          · rw [← String.toList_inj, String.toList_append] at h
            exact absurd (List.cons.inj (String.toList_ofList ▸ h)).1 hslash

/-- A request has one rest after a name. -/
theorem AliasFits.rest_unique (h : AliasFits name rest request)
    (h' : AliasFits name rest' request) : rest = rest' := by
  rw [← afterAlias?_eq_some_iff] at h h'
  exact Option.some.inj (h.symm.trans h')

theorem AliasFits.isPrefix (h : AliasFits name rest request) : name.toList <+: request.toList :=
  ⟨rest.toList, by rw [h.1, String.toList_append]⟩

/-- A text does not come before a beginning of it. -/
theorem not_lt_of_isPrefix (h : name.toList <+: other.toList) : ¬ other < name := by
  obtain ⟨more, hmore⟩ := h
  have hlists : ∀ start : List Char, ¬ (start ++ more).lt start := by
    intro start hlt
    induction start with
    | nil => cases hlt
    | cons c start ih =>
      cases hlt with
      | rel hc => exact Char.lt_irrefl c hc
      | cons hrest => exact ih hrest
  exact fun hlt => hlists name.toList (hmore ▸ hlt)

/-- Of names that fit one request the earlier in key order is the shorter. -/
theorem AliasFits.length_le (h : AliasFits name rest request)
    (h' : AliasFits other rest' request) (hlt : name < other) : name.length ≤ other.length := by
  rw [← String.length_toList, ← String.length_toList]
  by_contra hlonger
  -- A longer name would begin with the other one and come after it.
  exact not_lt_of_isPrefix (List.prefix_of_prefix_length_le h'.isPrefix h.isPrefix
    (Nat.le_of_not_le hlonger)) hlt

/-- Names of one length that fit one request are one name. -/
theorem AliasFits.name_unique (h : AliasFits name rest request)
    (h' : AliasFits other rest' request) (hlength : name.length = other.length) :
    name = other := by
  rw [← String.length_toList, ← String.length_toList] at hlength
  have hbegins := List.prefix_of_prefix_length_le h.isPrefix h'.isPrefix (Nat.le_of_eq hlength)
  exact String.toList_inj.1 (hbegins.eq_of_length hlength)

end Names

/-! ## Aliases of options -/

namespace Lookup

variable {options target : Json} {name : String}

/-- The target of an alias among options. -/
def aliasTarget? (options : Json) (name : String) : Option Json :=
  ((options.field? "alias").map Json.settled).bind (·.field? name)

theorem sorted_aliases (kind : ResolverKind) (options : Json) :
    (KeyMap.keys (ofOptions kind options).aliases).Pairwise (· < ·) := by
  unfold ofOptions
  cases options.field? "alias" with
  | none => exact .nil
  | some value =>
    cases value with
    | obj fields =>
      have hsorted := KeyMap.sorted_ofList fields
      simpa [Json.settled_obj, Json.obj?, KeyMap.keys, Function.comp_def] using hsorted
    | arr items =>
      rw [Option.map_some, Json.settled_arr]
      exact .nil
    | null | bool | int | float | str => exact .nil

theorem mem_aliases_iff (kind : ResolverKind) :
    (name, target) ∈ (ofOptions kind options).aliases ↔ aliasTarget? options name = some target := by
  have hnodup := KeyMap.nodup_keys_of_sorted (sorted_aliases kind options)
  rw [← KeyMap.get?_eq_some_iff hnodup]
  unfold ofOptions aliasTarget?
  cases (options.field? "alias").map Json.settled with
  | none => rfl
  | some value => cases value <;> rfl

end Lookup

/-- The shortest alias among options that fits a request. -/
structure ShortestAlias (options : Json) (request name rest : String) (target : Json) : Prop where
  isAlias : Lookup.aliasTarget? options name = some target
  fits : AliasFits name rest request
  shortest : ∀ other rest' target', Lookup.aliasTarget? options other = some target' →
    AliasFits other rest' request → name.length ≤ other.length

section Requests

variable {kind : ResolverKind} {options target target' : Json}
  {request name name' rest rest' : String}

/-- There is one shortest alias at most. -/
theorem ShortestAlias.unique (h : ShortestAlias options request name rest target)
    (h' : ShortestAlias options request name' rest' target') :
    name = name' ∧ rest = rest' ∧ target = target' := by
  have hlength := Nat.le_antisymm (h.shortest _ _ _ h'.isAlias h'.fits)
    (h'.shortest _ _ _ h.isAlias h.fits)
  obtain rfl := h.fits.name_unique h'.fits hlength
  exact ⟨rfl, h.fits.rest_unique h'.fits, Option.some.inj (h.isAlias.symm.trans h'.isAlias)⟩

/-- The first alias in key order that fits is the shortest. -/
theorem Earliest.shortestAlias
    (h : Earliest (fun entry => ∃ rest, AliasFits entry.1 rest request)
      (Lookup.ofOptions kind options).aliases (name, target)) (hfits : AliasFits name rest request) :
    ShortestAlias options request name rest target := by
  refine ⟨(Lookup.mem_aliases_iff kind).1 h.mem.1, hfits, fun other rest' target' hother hfits' => ?_⟩
  obtain ⟨before, after, hall, hbefore, -⟩ := h
  have hsorted := Lookup.sorted_aliases kind options
  have hmem := (Lookup.mem_aliases_iff kind).2 hother
  rw [hall] at hsorted hmem
  rw [KeyMap.keys, List.map_append, List.pairwise_append] at hsorted
  rcases List.mem_append.1 hmem with hmem | hmem
  · exact absurd ⟨rest', hfits'⟩ (hbefore _ hmem)
  · rcases List.mem_cons.1 hmem with hsame | hlater
    · cases hsame
      exact Nat.le_refl _
    · have hlt := (List.pairwise_cons.1 hsorted.2.1).1 other (List.mem_map_of_mem hlater)
      exact hfits.length_le hfits' hlt

/-- What aliases make of a request is what the first that fits makes of it. -/
theorem Aliased.ofRequest_eq (request : String) (entries : List (String × Json)) :
    ofRequest request entries
      = (entries.findSome? fun entry => (afterAlias? entry.1 request).map (ofTarget entry.2)).getD
          .asWritten := by
  induction entries with
  | nil => rfl
  | cons entry others ih =>
    obtain ⟨name, target⟩ := entry
    rw [ofRequest, List.findSome?_cons, ih]
    cases afterAlias? name request <;> rfl

/-- A target that is neither a text nor `false` is of no use. -/
theorem Aliased.ofTarget_eq_asWritten (htext : ∀ text, target ≠ .str text)
    (hfalse : target ≠ .bool false) (rest : String) : ofTarget target rest = .asWritten := by
  unfold ofTarget
  split
  · next text => exact absurd rfl (htext text)
  · exact absurd rfl hfalse
  · rfl

/-- Only `false` leaves a request out. -/
theorem Aliased.ofTarget_eq_ignored_iff {rest : String} :
    ofTarget target rest = .ignored ↔ target = .bool false := by
  unfold ofTarget
  split <;> simp_all

theorem afterAlias?_map_eq_none_iff {entry : String × Json} :
    (afterAlias? entry.1 request).map (Aliased.ofTarget entry.2) = none
      ↔ ¬ ∃ rest, AliasFits entry.1 rest request := by
  rw [Option.map_eq_none_iff, Option.eq_none_iff_forall_ne_some, not_exists]
  exact forall_congr' fun rest => not_congr afterAlias?_eq_some_iff

/-- What the aliases of options make of a request: what the shortest that fits
makes of it. -/
inductive AliasGives (options : Json) (request : String) : Aliased → Prop where
  | shortest {name rest : String} {target : Json}
    (decides : ShortestAlias options request name rest target) :
    AliasGives options request (.ofTarget target rest)
  | unfit (none : ∀ name rest, AliasFits name rest request →
      Lookup.aliasTarget? options name = none) : AliasGives options request .asWritten

theorem aliasGives_ofRequest (kind : ResolverKind) (options : Json) (request : String) :
    AliasGives options request
      (Aliased.ofRequest request (Lookup.ofOptions kind options).aliases) := by
  rw [Aliased.ofRequest_eq]
  cases hfirst : (Lookup.ofOptions kind options).aliases.findSome? _ with
  | none =>
    refine .unfit fun name rest hfits => Option.eq_none_iff_forall_ne_some.2 fun target halias => ?_
    have hmem := (Lookup.mem_aliases_iff kind).2 halias
    exact afterAlias?_map_eq_none_iff.1 (List.findSome?_eq_none_iff.1 hfirst _ hmem) ⟨rest, hfits⟩
  | some aliased =>
    obtain ⟨⟨name, target⟩, hearliest, haliased⟩ :=
      (findSome?_eq_some_iff_earliest fun _ => afterAlias?_map_eq_none_iff).1 hfirst
    obtain ⟨rest, hrest, rfl⟩ := Option.map_eq_some_iff.1 haliased
    exact .shortest (hearliest.shortestAlias (afterAlias?_eq_some_iff.1 hrest))

/-- What aliases make of a request is determined. -/
theorem AliasGives.unique {aliased other : Aliased} (h : AliasGives options request aliased)
    (h' : AliasGives options request other) : aliased = other := by
  cases h with
  | shortest hs =>
    cases h' with
    | shortest hs' =>
      obtain ⟨-, rfl, rfl⟩ := hs.unique hs'
      rfl
    | unfit hnone => cases (hnone _ _ hs.fits).symm.trans hs.isAlias
  | unfit hnone =>
    cases h' with
    | shortest hs' => cases (hnone _ _ hs'.fits).symm.trans hs'.isAlias
    | unfit => rfl

/-- Where an alias fits there is a shortest. -/
theorem exists_shortestAlias (h : Lookup.aliasTarget? options name = some target)
    (hfits : AliasFits name rest request) :
    ∃ name rest target, ShortestAlias options request name rest target := by
  have hgives := aliasGives_ofRequest .normal options request
  generalize Aliased.ofRequest request _ = aliased at hgives
  cases hgives with
  | shortest hshortest => exact ⟨_, _, _, hshortest⟩
  | unfit hnone => cases (hnone _ _ hfits).symm.trans h

theorem ofRequest_eq_iff (kind : ResolverKind) {aliased : Aliased} :
    Aliased.ofRequest request (Lookup.ofOptions kind options).aliases = aliased
      ↔ AliasGives options request aliased := by
  have hgives := aliasGives_ofRequest kind options request
  exact ⟨fun h => h ▸ hgives, hgives.unique⟩

namespace Search

variable {v : View} {l : Lookup} {context request : String}

theorem inDirectories_withAliases (others : List (String × Json)) (r : PackageRequest) :
    ∀ dirs : List String,
      inDirectories v { l with aliases := others } r dirs = inDirectories v l r dirs
  | [] => rfl
  | dir :: above => by
      rw [inDirectories, inDirectories, inDirectories_withAliases others r above]
      rfl

/-- Where a request leads that no alias changes any more does not depend on
aliases. -/
theorem direct_withAliases (others : List (String × Json)) :
    direct v { l with aliases := others } context request = direct v l context request := by
  unfold direct bare
  rw [inDirectories_withAliases]
  rfl

/-- A request to which no alias applies is sought as if there were none. -/
theorem search_of_asWritten (h : Aliased.ofRequest request l.aliases = .asWritten) :
    search v l context request = search v { l with aliases := [] } context request := by
  have hleft : isBareLeftOut v { l with aliases := [] } context request
      = isBareLeftOut v l context request := rfl
  simp only [search, h, Aliased.ofRequest, hleft, direct_withAliases]

/-- **The shortest alias decides.** If an alias fits a request, there is one
that is the shortest; a text in its place is sought with what follows the
name, and no alias is asked again; `false` leaves the request out, and with
any other target the request is sought as if there were no aliases, as is a
request that no alias fits. -/
theorem search_shortest_alias (v : View) (kind : ResolverKind) (options : Json)
    (context request : String) :
    (∀ name rest target, ShortestAlias options request name rest target →
      (∀ text, target = .str text → ∀ others,
        search v (.ofOptions kind options) context request
          = direct v { Lookup.ofOptions kind options with aliases := others } context
              (text ++ rest))
      ∧ (target = .bool false →
        search v (.ofOptions kind options) context request = .ok .ignored)
      ∧ ((∀ text, target ≠ .str text) → target ≠ .bool false →
        search v (.ofOptions kind options) context request
          = search v { Lookup.ofOptions kind options with aliases := [] } context request))
    ∧ ((∀ name rest, AliasFits name rest request → Lookup.aliasTarget? options name = none) →
      search v (.ofOptions kind options) context request
        = search v { Lookup.ofOptions kind options with aliases := [] } context request)
    ∧ ∀ name rest target, Lookup.aliasTarget? options name = some target →
      AliasFits name rest request → ∃ name rest target,
        ShortestAlias options request name rest target
          ∧ ∀ name' rest' target', ShortestAlias options request name' rest' target' →
            name' = name ∧ rest' = rest ∧ target' = target := by
  refine ⟨fun name rest target hshortest => ?_, fun hnone => ?_, fun name rest target h hfits => ?_⟩
  · have haliased := (ofRequest_eq_iff kind).2 (.shortest hshortest)
    refine ⟨?_, ?_, fun htext hfalse => search_of_asWritten (haliased.trans ?_)⟩
    · rintro text rfl others
      rw [direct_withAliases, search, haliased]
      rfl
    · rintro rfl
      rw [search, haliased]
      rfl
    · exact Aliased.ofTarget_eq_asWritten htext hfalse rest
  · exact search_of_asWritten ((ofRequest_eq_iff kind).2 (.unfit hnone))
  · obtain ⟨_, _, _, hshortest⟩ := exists_shortestAlias h hfits
    exact ⟨_, _, _, hshortest, fun _ _ _ hother => hother.unique hshortest⟩

/-- Aliases of which two fit a request below the longer one. -/
def nestedAliases (target : Json) : Json :=
  .obj [("alias", .obj [("a/b", .str "/gone"), ("a-c", .bool false), ("a", target), ("b", .null)])]

theorem shortestAlias_nestedAliases (target : Json) :
    ShortestAlias (nestedAliases target) "a/b/x" "a" "/b/x" target.settled where
  isAlias := rfl
  fits := ⟨by decide, .inr ⟨"b/x", by decide⟩⟩
  shortest other _ _ hother _ := by
    by_contra hshorter
    have hempty : other = "" := by
      rw [← String.length_eq_zero_iff]
      exact Nat.lt_one_iff.1 (Nat.lt_of_not_le hshorter)
    subst hempty
    cases hother

/-- A disk with one file. -/
def libFile : View where
  isFile place := place = "/lib/b/x"
  isDir _ := false
  read? _ := none
  canonical? _ := some "/lib/b/x"

theorem search_shortest_alias_of_nestedAliases :
    ShortestAlias (nestedAliases (.str "/lib")) "a/b/x" "a" "/b/x" (.str "/lib")
    ∧ search libFile (.ofOptions .normal (nestedAliases (.str "/lib"))) "/d" "a/b/x"
      = .ok (.file "/lib/b/x")
    ∧ ShortestAlias (nestedAliases (.bool false)) "a/b/x" "a" "/b/x" (.bool false)
    ∧ search libFile (.ofOptions .normal (nestedAliases (.bool false))) "/d" "a/b/x" = .ok .ignored
    ∧ ShortestAlias (nestedAliases .null) "a/b/x" "a" "/b/x" .null
    ∧ search libFile (.ofOptions .normal (nestedAliases .null)) "/d" "a/b/x"
      = .error (.noPackage "a") := by
  have htext := shortestAlias_nestedAliases (.str "/lib")
  have hfalse := shortestAlias_nestedAliases (.bool false)
  have hnull := shortestAlias_nestedAliases .null
  have hlib := (search_shortest_alias libFile .normal (nestedAliases (.str "/lib")) "/d"
    "a/b/x").1 _ _ _ htext
  have hleft := (search_shortest_alias libFile .normal (nestedAliases (.bool false)) "/d"
    "a/b/x").1 _ _ _ hfalse
  have hunusable := (search_shortest_alias libFile .normal (nestedAliases .null) "/d"
    "a/b/x").1 _ _ _ hnull
  refine ⟨htext, (hlib.1 "/lib" rfl []).trans (by decide +kernel), hfalse, hleft.2.1 rfl, hnull,
    (hunusable.2.2 (fun _ h => nomatch h) (by decide)).trans (by decide +kernel)⟩

end Search

end Requests

end ImportChain
