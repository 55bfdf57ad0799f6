/-
ImportChain.Proofs.Rule.RoundTrip — rules read back from how they are
printed.

Every condition is read back from its JSON form (`Condition.ofJson?_toJson`):
of the forms that an object may have, the one printed is the first that
fits. The entries of what a rule uses and the rules themselves hold options
that are kept as JSON, and only what was read is read back
(`Use.restores`, `Rule.restored_of_ofJson?`).

A rule is printed as an object with all its fields, also where it was written
as an array or left most of them out. What it says by itself and the rules
below it are read apart, and so are they read back.
-/
import ImportChain.Proofs.Json.Record
import ImportChain.Rule.Schema

namespace ImportChain

open Json.Schema

/-! ## Conditions -/

mutual

/-- Every condition is read back. -/
theorem Condition.ofJson?_toJson : ∀ c : Condition, Condition.ofJson? c.toJson = some c
  | .beginsWith _ => rfl
  | .regex _ => by
      simp [Condition.toJson, Condition.ofJson?, conditionsOfFields, Condition.ofFields?,
        once?_singleton]
  | .all parts => by
      simp [Condition.toJson, Condition.ofJson?, conditionsOfFields, Condition.ofFields?,
        once?_singleton, conditionsOfItems?_toJson parts]
  | .any parts => by
      simp [Condition.toJson, Condition.ofJson?, conditionsOfFields, Condition.ofFields?,
        once?_singleton, conditionsOfItems?_toJson parts]
  | .not part => by
      simp [Condition.toJson, Condition.ofJson?, conditionsOfFields, Condition.ofFields?,
        once?_singleton, Condition.ofJson?_toJson part]
  | .list parts => by
      simp [Condition.toJson, Condition.ofJson?, conditionsOfItems?_toJson parts]

theorem conditionsOfItems?_toJson : ∀ parts : List Condition,
    conditionsOfItems? (conditionsToJson parts) = some parts
  | [] => rfl
  | part :: rest => by
      simp [conditionsToJson, conditionsOfItems?, Condition.ofJson?_toJson part,
        conditionsOfItems?_toJson rest]

end

theorem Condition.restores : Restores Condition.ofJson? Condition.toJson := by
  intro _ c _ _
  refine ⟨?_, c.ofJson?_toJson⟩
  cases c <;> simp [Condition.toJson]

/-! ## Loaders and positions -/

/-- A position is printed by its name, also where it was written as an
object. -/
theorem Enforce.restores : Restores Enforce.ofJson? fun e => .str e.text := by
  intro _ e _ _
  refine ⟨nofun, ?_⟩
  cases e <;> decide

namespace UseItem

theorem toJson_ne_null (item : UseItem) : item.toJson ≠ .null := by
  cases item <;> simp [toJson]

theorem ofJson?_toJson {value : Json} {item : UseItem} (h : ofJson? value = some item) :
    ofJson? item.toJson = some item := by
  cases value with
  | str text =>
    cases h
    rfl
  | obj fields =>
    simp only [ofJson?, bind, Option.bind_eq_some_iff] at h
    obtain ⟨name, -, options, hoptions, ident, hident, hitem⟩ := h
    cases hitem
    let printed := [("ident", Json.ofStr? ident), ("loader", .str name),
      ("options", Json.orNull options)]
    have hoptions' : optional? any? printed "options" = some options :=
      optional?_of_restores restores_any hoptions (by simp [printed, occurrences])
    have hident' : optional? Json.str? printed "ident" = some ident :=
      optional?_of_restores restores_str hident
        (by simp [printed, occurrences, ofStr?_eq_orNull])
    have hname : (once? printed "loader").bind Json.str? = some name := by
      simp [printed, once?, occurrences, Json.str?]
    simp only [toJson, ofJson?]
    rw [hname, hoptions', hident']
    rfl
  | null | bool | int | float | arr => cases h

end UseItem

theorem Use.restores : Restores Use.ofJson? Use.toJson := by
  intro value use _ h
  unfold Use.ofJson? at h
  split at h
  · next item hitem =>
    cases h
    refine ⟨item.toJson_ne_null, ?_⟩
    simp only [Use.ofJson?, Use.toJson, UseItem.ofJson?_toJson hitem]
  · split at h
    · next items _ =>
      obtain ⟨entries, hentries, rfl⟩ := Option.map_eq_some_iff.1 h
      have hback : (entries.map UseItem.toJson).mapM UseItem.ofJson? = some entries := by
        refine mapM_map fun entry hentry => ?_
        obtain ⟨_, -, hread⟩ := exists_mem_of_mapM hentries entry hentry
        exact UseItem.ofJson?_toJson hread
      refine ⟨nofun, ?_⟩
      simp [Use.ofJson?, Use.toJson, UseItem.ofJson?, hback]
    · cases h

/-! ## What a rule says by itself -/

/-- What a rule says by itself is read back from any record that has its
fields. -/
theorem RuleBody.ofFields?_of_fields {fields printed : Written Json} {body : RuleBody}
    (h : ofFields? fields = some body)
    (hprinted : ∀ field ∈ body.fields, occurrences printed field.1 = [field.2]) :
    ofFields? printed = some body := by
  have hback : ∀ {α : Type} {read? : Json → Option α} {print : α → Json},
      Restores read? print → ∀ {key : String} {a : Option α},
        optional? read? fields key = some a → (key, Json.orNull (a.map print)) ∈ body.fields →
          optional? read? printed key = some a :=
    fun hrestores _ _ hread hmem => optional?_of_restores hrestores hread (hprinted _ hmem)
  obtain ⟨test, htest, h⟩ := Option.bind_eq_some_iff.1 h
  obtain ⟨includes, hincludes, h⟩ := Option.bind_eq_some_iff.1 h
  obtain ⟨excludes, hexcludes, h⟩ := Option.bind_eq_some_iff.1 h
  obtain ⟨resource, hresource, h⟩ := Option.bind_eq_some_iff.1 h
  obtain ⟨realResource, hrealResource, h⟩ := Option.bind_eq_some_iff.1 h
  obtain ⟨resourceQuery, hresourceQuery, h⟩ := Option.bind_eq_some_iff.1 h
  obtain ⟨issuer, hissuer, h⟩ := Option.bind_eq_some_iff.1 h
  obtain ⟨compiler, hcompiler, h⟩ := Option.bind_eq_some_iff.1 h
  obtain ⟨loader, hloader, h⟩ := Option.bind_eq_some_iff.1 h
  obtain ⟨options, hoptions, h⟩ := Option.bind_eq_some_iff.1 h
  obtain ⟨uses, huses, h⟩ := Option.bind_eq_some_iff.1 h
  obtain ⟨enforce, henforce, h⟩ := Option.bind_eq_some_iff.1 h
  obtain ⟨moduleType, hmoduleType, h⟩ := Option.bind_eq_some_iff.1 h
  obtain ⟨parser, hparser, h⟩ := Option.bind_eq_some_iff.1 h
  obtain ⟨generator, hgenerator, h⟩ := Option.bind_eq_some_iff.1 h
  obtain ⟨resolve, hresolve, h⟩ := Option.bind_eq_some_iff.1 h
  obtain ⟨sideEffects, hsideEffects, h⟩ := Option.bind_eq_some_iff.1 h
  cases h
  unfold ofFields?
  rw [hback Condition.restores htest (by simp [RuleBody.fields]),
    hback Condition.restores hincludes (by simp [RuleBody.fields]),
    hback Condition.restores hexcludes (by simp [RuleBody.fields]),
    hback Condition.restores hresource (by simp [RuleBody.fields]),
    hback Condition.restores hrealResource (by simp [RuleBody.fields]),
    hback Condition.restores hresourceQuery (by simp [RuleBody.fields]),
    hback Condition.restores hissuer (by simp [RuleBody.fields]),
    hback Condition.restores hcompiler (by simp [RuleBody.fields]),
    hback restores_str hloader (by simp [RuleBody.fields, ofStr?_eq_orNull]),
    hback restores_any hoptions (by simp [RuleBody.fields]),
    hback Use.restores huses (by simp [RuleBody.fields]),
    hback Enforce.restores henforce
      (by simp [RuleBody.fields, ofStr?_eq_orNull, Function.comp_def]),
    hback restores_str hmoduleType (by simp [RuleBody.fields, ofStr?_eq_orNull]),
    hback restores_any hparser (by simp [RuleBody.fields]),
    hback restores_any hgenerator (by simp [RuleBody.fields]),
    hback restores_any hresolve (by simp [RuleBody.fields]),
    hback restores_any hsideEffects (by simp [RuleBody.fields])]
  rfl

/-! ## Rules -/

theorem rulesOfFields_eq_map (fields : List (String × Json)) :
    rulesOfFields fields = fields.map fun field => (field.1, rulesOfJson? field.2) :=
  Json.eq_map_of_cons rfl (fun _ _ => rfl) fields

theorem rulesOfEach_eq_map (items : List Json) : rulesOfEach items = items.map rulesOfJson? :=
  Json.eq_map_of_cons rfl (fun _ _ => rfl) items

theorem rulesToJson_eq_map (rules : List Rule) : rulesToJson rules = rules.map Rule.toJson :=
  Json.eq_map_of_cons rfl (fun _ _ => rfl) rules

theorem rulesOfItems?_eq_mapM (items : List Json) :
    rulesOfItems? items = items.mapM Rule.ofJson? := by
  induction items with
  | nil => rfl
  | cons item rest ih => rw [rulesOfItems?, ih, List.mapM_cons]

namespace Rule

variable {value : Json} {rule : Rule} {rules : List Rule}

/-- Whether a rule is read back from how it is printed. -/
def Restored (rule : Rule) : Prop := ofJson? rule.toJson = some rule

theorem rulesOfJson?_of_restored (h : ∀ rule ∈ rules, rule.Restored) :
    rulesOfJson? (.arr (rulesToJson rules)) = some rules := by
  rw [rulesOfJson?, rulesOfItems?_eq_mapM, rulesToJson_eq_map]
  exact mapM_map h

/-- A rule that is written as an array is read from fields that hold its
items. -/
theorem exists_fields_of_arr {items : List Json} (h : ofJson? (.arr items) = some rule) :
    ∃ fields : List (String × Json), (∀ field ∈ fields, field.2 ∈ items)
      ∧ ofFields? fields (rulesOfFields fields) = some rule := by
  rw [ofJson?, rulesOfEach_eq_map] at h
  obtain ⟨-, h⟩ := Option.ite_none_right_eq_some.1 h
  refine ⟨fieldNames.zip items, fun field hf => (List.of_mem_zip hf).2, ?_⟩
  rw [rulesOfFields_eq_map]
  rwa [List.zip_map_right] at h

/-- The fields that a rule is printed with, before they are put in order. -/
def fields (rule : Rule) : List (String × Json) :=
  rule.body.fields
    ++ [("rules", .arr (rulesToJson rule.rules)), ("oneOf", .arr (rulesToJson rule.oneOf))]

theorem toJson_eq (rule : Rule) : rule.toJson = .obj (KeyMap.ofList rule.fields) := by
  obtain ⟨body, rules, oneOf⟩ := rule
  rw [toJson]
  rfl

theorem nodup_keys_fields (rule : Rule) : (KeyMap.keys rule.fields).Nodup := by
  show List.Nodup ["test", "include", "exclude", "resource", "realResource", "resourceQuery",
    "issuer", "compiler", "loader", "options", "use", "enforce", "type", "parser", "generator",
    "resolve", "sideEffects", "rules", "oneOf"]
  decide

theorem ofFields?_eq_some_iff {fields : Written Json} {lists : Written (Option (List Rule))} :
    ofFields? fields lists = some rule
      ↔ RuleBody.ofFields? fields = some rule.body
        ∧ defaulted? [] id lists "rules" = some rule.rules
        ∧ defaulted? [] id lists "oneOf" = some rule.oneOf := by
  obtain ⟨body, rules, oneOf⟩ := rule
  simp only [ofFields?, bind, Option.bind_eq_some_iff, pure, Option.some.injEq, Rule.mk.injEq]
  constructor
  · rintro ⟨_, hbody, _, hrules, _, honeOf, rfl, rfl, rfl⟩
    exact ⟨hbody, hrules, honeOf⟩
  · rintro ⟨hbody, hrules, honeOf⟩
    exact ⟨_, hbody, _, hrules, _, honeOf, rfl, rfl, rfl⟩

/-- A list of rules is read back from a record that has it in a field. -/
theorem defaulted?_of_restored {printed : List (String × Json)} {key : String}
    (h : ∀ rule ∈ rules, rule.Restored)
    (hprinted : occurrences printed key = [.arr (rulesToJson rules)]) :
    defaulted? [] id (rulesOfFields printed) key = some rules := by
  have hlists : occurrences (rulesOfFields printed) key
      = [rulesOfJson? (.arr (rulesToJson rules))] := by
    rw [rulesOfFields_eq_map, occurrences_map, hprinted]
    rfl
  rw [defaulted?_of_occurrences hlists]
  exact rulesOfJson?_of_restored h

/-- A rule is read back if all lists of rules below it are. -/
theorem restored_of_fields {fields : List (String × Json)}
    (h : ofFields? fields (rulesOfFields fields) = some rule)
    (hbelow : ∀ field ∈ fields, ∀ rules, rulesOfJson? field.2 = some rules →
      ∀ rule ∈ rules, rule.Restored) : rule.Restored := by
  obtain ⟨hbody, hrules, honeOf⟩ := ofFields?_eq_some_iff.1 h
  have hrestored : ∀ {key : String} {rules : List Rule},
      defaulted? [] id (rulesOfFields fields) key = some rules →
        ∀ rule ∈ rules, rule.Restored := by
    intro key rules hread
    rcases eq_default_or_exists_of_defaulted? hread with rfl | ⟨v, hmem, hv⟩
    · exact nofun
    · rw [rulesOfFields_eq_map] at hmem
      obtain ⟨field, hfield, he⟩ := List.mem_map.1 hmem
      cases he
      exact hbelow field hfield rules hv
  have hprinted : ∀ field ∈ rule.fields,
      occurrences (KeyMap.ofList rule.fields) field.1 = [field.2] :=
    fun field hf => occurrences_ofList_of_mem rule.nodup_keys_fields hf
  have hnested : ("rules", .arr (rulesToJson rule.rules)) ∈ rule.fields :=
    List.mem_append_right _ List.mem_cons_self
  have hbranches : ("oneOf", .arr (rulesToJson rule.oneOf)) ∈ rule.fields :=
    List.mem_append_right _ (List.mem_cons_of_mem _ List.mem_cons_self)
  unfold Restored
  rw [toJson_eq, ofJson?]
  refine ofFields?_eq_some_iff.2 ⟨?_, ?_, ?_⟩
  · exact RuleBody.ofFields?_of_fields hbody fun field hf =>
      hprinted field (List.mem_append_left _ hf)
  · exact defaulted?_of_restored (hrestored hrules) (hprinted ("rules", _) hnested)
  · exact defaulted?_of_restored (hrestored honeOf) (hprinted ("oneOf", _) hbranches)

/-- A rule that was read, and every rule of a list that was read, is read
back. -/
theorem restored_of_ofJson? (value : Json) :
    (∀ rule, ofJson? value = some rule → rule.Restored)
      ∧ ∀ rules, rulesOfJson? value = some rules → ∀ rule ∈ rules, rule.Restored := by
  induction value using Json.induction with
  | null | bool | int | float | str => exact ⟨nofun, nofun⟩
  | arr items ih =>
    refine ⟨fun rule h => ?_, fun rules h => ?_⟩
    · obtain ⟨fields, hfields, hrule⟩ := exists_fields_of_arr h
      exact restored_of_fields hrule fun field hf => (ih field.2 (hfields field hf)).2
    · rw [rulesOfJson?, rulesOfItems?_eq_mapM] at h
      intro rule hrule
      obtain ⟨item, hitem, hread⟩ := exists_mem_of_mapM h rule hrule
      exact (ih item hitem).1 rule hread
  | obj fields ih =>
    refine ⟨fun rule h => ?_, nofun⟩
    exact restored_of_fields h fun field hf => (ih field hf).2

end Rule

end ImportChain
