/-
ImportChain.Proofs.Config.RoundTrip — configurations read back from how they
are printed.

A configuration may be written in several ways: as an object or an array,
with `null` for what is missing, a position as a text or as an object. It is
printed in one of them, and that one is read as the same configuration
(`read_of_printed`), so that its rules come to the same, whether they can be
made ready or not.
-/
import ImportChain.Config.Basic
import ImportChain.Delegate
import ImportChain.Proofs.Rule.RoundTrip

namespace ImportChain

open Json.Schema

/-! ## Who asks -/

namespace ContextInfo

/-- Who asks is read back, also where nobody is named. -/
theorem ofJson?_toJson (info : ContextInfo) : ofJson? info.toJson = some info := by
  obtain ⟨issuer, compiler⟩ := info
  cases issuer <;> cases compiler <;> rfl

end ContextInfo

/-! ## Configurations -/

namespace Config

variable {value : Json} {fields : List (String × Json)} {c : Config}

theorem ofFields?_eq_some_iff :
    ofFields? fields = some c
      ↔ defaulted? "" Json.str? fields "context" = some c.context
        ∧ defaulted? [] rulesOfJson? fields "rules" = some c.rules
        ∧ defaulted? true Json.bool? fields "defaultRules" = some c.defaultRules
        ∧ defaulted? true Json.bool? fields "unsafeCache" = some c.unsafeCache
        ∧ defaulted? .empty any? fields "resolve" = some c.resolve := by
  obtain ⟨context, rules, defaultRules, unsafeCache, resolve⟩ := c
  simp only [ofFields?, bind, Option.bind_eq_some_iff, pure, Option.some.injEq, Config.mk.injEq]
  constructor
  · rintro ⟨_, h1, _, h2, _, h3, _, h4, _, h5, rfl, rfl, rfl, rfl, rfl⟩
    exact ⟨h1, h2, h3, h4, h5⟩
  · rintro ⟨h1, h2, h3, h4, h5⟩
    exact ⟨_, h1, _, h2, _, h3, _, h4, _, h5, rfl, rfl, rfl, rfl, rfl⟩

theorem exists_fields_of_ofJson? (h : ofJson? value = some c) :
    ∃ fields, ofFields? fields = some c := by
  cases value with
  | obj fields => exact ⟨fields, h⟩
  | arr items => exact ⟨_, (Option.ite_none_right_eq_some.1 h).2⟩
  | null | bool | int | float | str => cases h

/-- A configuration that was read is read back. -/
theorem ofJson?_toJson (h : ofJson? value = some c) : ofJson? c.toJson = some c := by
  obtain ⟨fields, hfields⟩ := exists_fields_of_ofJson? h
  obtain ⟨-, hrules, -, -, hresolve⟩ := ofFields?_eq_some_iff.1 hfields
  have hrestored : ∀ rule ∈ c.rules, rule.Restored := by
    rcases eq_default_or_exists_of_defaulted? hrules with he | ⟨v, -, hv⟩
    · rw [he]
      exact nofun
    · exact (Rule.restored_of_ofJson? v).2 _ hv
  have hsettled : any? c.resolve = some c.resolve := by
    rcases eq_default_or_exists_of_defaulted? hresolve with he | ⟨v, -, hv⟩
    · rw [he]
      rfl
    · rw [← Option.some.inj hv]
      exact congrArg some (Json.settled_settled v)
  refine ofFields?_eq_some_iff.2 ⟨?_, ?_, ?_, ?_, ?_⟩
  · rfl
  · exact (defaulted?_of_occurrences (by simp [occurrences])).trans
      (Rule.rulesOfJson?_of_restored hrestored)
  · rfl
  · rfl
  · exact (defaulted?_of_occurrences (by simp [occurrences])).trans hsettled

end Config

/-! ## Everything that is configured -/

/-- Whether two attempts to make rules ready fail in the same way, or give
sets that contribute the same for all facts and know the same options. -/
def RuleSet.Agree : Except RuleError RuleSet → Except RuleError RuleSet → Prop
  | .ok set, .ok set' => (∀ facts, set.exec facts = set'.exec facts)
      ∧ ∀ ident, set.findOptions ident = set'.findOptions ident
  | .error e, .error e' => e = e'
  | _, _ => False

theorem RuleSet.agree_refl (result : Except RuleError RuleSet) : Agree result result := by
  cases result with
  | ok set => exact ⟨fun _ => rfl, fun _ => rfl⟩
  | error e => exact rfl

/-- What a value configures, however it is written, is read back from how it
is printed, and the rules come to the same. -/
theorem read_of_printed (value : Json) :
    (∀ c, Config.ofJson? value = some c →
        ∃ c', Config.ofJson? c.toJson = some c' ∧ c' = c ∧ RuleSet.Agree c'.ruleSet c.ruleSet)
      ∧ (∀ rules, rulesOfJson? value = some rules →
        ∃ rules', rulesOfJson? (.arr (rulesToJson rules)) = some rules' ∧ rules' = rules
          ∧ RuleSet.Agree (RuleSet.compile rules') (RuleSet.compile rules))
      ∧ (∀ c, Condition.ofJson? value = some c → Condition.ofJson? c.toJson = some c)
      ∧ ∀ info, ContextInfo.ofJson? value = some info →
        ContextInfo.ofJson? info.toJson = some info := by
  refine ⟨fun c h => ?_, fun rules h => ?_, fun c _ => c.ofJson?_toJson,
    fun info _ => info.ofJson?_toJson⟩
  · exact ⟨c, Config.ofJson?_toJson h, rfl, RuleSet.agree_refl _⟩
  · have hrestored := (Rule.restored_of_ofJson? value).2 rules h
    exact ⟨rules, Rule.rulesOfJson?_of_restored hrestored, rfl, RuleSet.agree_refl _⟩

/-- Rules in all spellings: as an object and as an array, with `null` and
without, one below the other. -/
def spelledRules : Json :=
  .arr [.obj [("test", .obj [("not", .arr [.str "/app/x", .obj [("regex", .str "y$")]])]),
      ("exclude", .null), ("enforce", .obj [("pre", .null)]), ("unknown", .int 1),
      ("use", .arr [.str "a-loader?x!b-loader", .obj [("loader", .str "c-loader"),
        ("options", .obj [("b", .int 1), ("a", .null), ("b", .int 2)])]]),
      ("oneOf", .arr [.arr [.str "/app"], .arr []])],
    .arr [.null, .obj [("and", .arr [])]]]

def spelledCondition : Json :=
  .obj [("or", .arr [.arr [], .obj [("and", .arr [.str "/app"]), ("not", .str "/")]])]

theorem read_of_printed_of_spelledRules :
    (∃ c, Config.ofJson? (.arr [.str "src", spelledRules, .bool false]) = some c
      ∧ c.rules.length = 2 ∧ c.defaultRules = false
      ∧ ∃ c', Config.ofJson? c.toJson = some c' ∧ c' = c ∧ RuleSet.Agree c'.ruleSet c.ruleSet)
    ∧ (∃ rules, rulesOfJson? spelledRules = some rules
      ∧ rules.map (fun rule => (rule.body.enforce, rule.oneOf.length)) = [(some .pre, 2), (none, 0)]
      ∧ ∃ rules', rulesOfJson? (.arr (rulesToJson rules)) = some rules' ∧ rules' = rules
        ∧ RuleSet.Agree (RuleSet.compile rules') (RuleSet.compile rules))
    ∧ (∃ c, Condition.ofJson? spelledCondition = some c
      ∧ c.toJson = .obj [("or", .arr [.arr [], .obj [("and", .arr [.str "/app"])]])]
      ∧ Condition.ofJson? c.toJson = some c)
    ∧ ∃ info, ContextInfo.ofJson? (.arr [.null, .str "child"]) = some info
      ∧ ContextInfo.ofJson? info.toJson = some info := by
  refine ⟨?_, ?_, ?_, ?_⟩
  · have hread : (Config.ofJson? (.arr [.str "src", spelledRules, .bool false])).map
        (fun c => (c.rules.length, c.defaultRules)) = some (2, false) := by decide +kernel
    obtain ⟨c, hc, hfields⟩ := Option.map_eq_some_iff.1 hread
    obtain ⟨hlength, hdefault⟩ := Prod.mk.inj hfields
    exact ⟨c, hc, hlength, hdefault, (read_of_printed _).1 c hc⟩
  · have hread : (rulesOfJson? spelledRules).map
        (fun rules => rules.map fun rule => (rule.body.enforce, rule.oneOf.length))
          = some [(some .pre, 2), (none, 0)] := by decide +kernel
    obtain ⟨rules, hrules, hshape⟩ := Option.map_eq_some_iff.1 hread
    exact ⟨rules, hrules, hshape, (read_of_printed _).2.1 rules hrules⟩
  · have hread : (Condition.ofJson? spelledCondition).map Condition.toJson
        = some (.obj [("or", .arr [.arr [], .obj [("and", .arr [.str "/app"])]])]) := by rfl
    obtain ⟨c, hc, hprint⟩ := Option.map_eq_some_iff.1 hread
    exact ⟨c, hc, hprint, (read_of_printed _).2.2.1 c hc⟩
  · exact ⟨⟨none, some "child"⟩, rfl, (read_of_printed (.arr [.null, .str "child"])).2.2.2 _ rfl⟩

end ImportChain
