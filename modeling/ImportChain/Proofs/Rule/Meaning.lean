/-
ImportChain.Proofs.Rule.Meaning — what a single rule means, said of the
rule as written.

`Condition.Holds` is the meaning of a condition, `RuleBody.Passes` that of
all conditions of a rule, and `RuleBody.ownEffects` what the rule
contributes by itself. Making a rule ready keeps all three:
`Condition.holds_iff_of_compile`, `NodeBody.passes_iff_of_compile` and
`NodeBody.ownEffects_of_compile`.

The four conditions on the resource are one condition in a node, so that
an exclusion alone fails on an empty resource too; the other conditions
are checked one by one.
-/
import ImportChain.Rule.Set
import ImportChain.Proofs.Outcome

namespace ImportChain

open Outcome

/-! ## Conditions -/

namespace Condition

/-- What a condition says of a value. -/
def Holds (value : String) : Condition → Prop
  | .beginsWith text => ∃ rest, value = text ++ rest
  | .regex pattern => ∃ p, Regex.Pattern.ofText? pattern = some p ∧ p.isMatch value = true
  | .all parts => ∀ part ∈ parts, Holds value part
  | .any parts => ∃ part, ∃ _ : part ∈ parts, Holds value part
  | .not part => ¬ Holds value part
  | .list parts => ∃ part, ∃ _ : part ∈ parts, Holds value part

/-- A fact that is there, is not empty and satisfies a condition. -/
def Met (fact : Option String) (c : Condition) : Prop :=
  ∃ value, fact = some value ∧ value ≠ "" ∧ c.Holds value

theorem startsWith_toList_iff (text value : String) :
    Text.startsWith text.toList value.toList = true ↔ ∃ rest, value = text ++ rest := by
  rw [Text.startsWith_iff]
  constructor
  · rintro ⟨rest, h⟩
    refine ⟨String.ofList rest, ?_⟩
    rw [← String.toList_inj, String.toList_append, String.toList_ofList, h]
  · rintro ⟨rest, rfl⟩
    exact ⟨rest.toList, String.toList_append⟩

mutual

/-- A condition made ready holds of the same values. -/
theorem holds_iff_of_compile {value : String} : ∀ {c : Condition} {m : Matcher},
    c.compile = .ok m → (m.holds value = true ↔ c.Holds value)
  | .beginsWith text, m, h => by
      unfold compile at h
      cases h
      unfold Matcher.holds Holds
      exact startsWith_toList_iff text value
  | .regex pattern, m, h => by
      unfold compile at h
      unfold Holds
      split at h
      · next p hp =>
        cases h
        unfold Matcher.holds
        simp only [hp, Option.some.injEq, exists_eq_left']
      · cases h
  | .all parts, m, h => by
      unfold compile at h
      obtain ⟨ms, hms, rfl⟩ := map_eq_ok_iff.1 h
      unfold Matcher.holds Holds
      exact holdsAll_iff_of_compileAll hms
  | .any parts, m, h => by
      unfold compile at h
      obtain ⟨ms, hms, rfl⟩ := map_eq_ok_iff.1 h
      unfold Matcher.holds Holds
      simpa only [exists_prop] using holdsAny_iff_of_compileAll hms
  | .list parts, m, h => by
      unfold compile at h
      obtain ⟨ms, hms, rfl⟩ := map_eq_ok_iff.1 h
      unfold Matcher.holds Holds
      simpa only [exists_prop] using holdsAny_iff_of_compileAll hms
  | .not part, m, h => by
      unfold compile at h
      obtain ⟨p, hp, rfl⟩ := map_eq_ok_iff.1 h
      unfold Matcher.holds Holds
      rw [← holds_iff_of_compile hp]
      simp

theorem holdsAll_iff_of_compileAll {value : String} :
    ∀ {parts : List Condition} {ms : List Matcher}, compileAll parts = .ok ms →
      (Matcher.holdsAll value ms = true ↔ ∀ part ∈ parts, part.Holds value)
  | [], ms, h => by
      unfold compileAll at h
      cases h
      simp [Matcher.holdsAll]
  | part :: rest, ms, h => by
      unfold compileAll at h
      obtain ⟨first, hfirst, h⟩ := bind_eq_ok_iff.1 h
      obtain ⟨others, hothers, h⟩ := bind_eq_ok_iff.1 h
      cases h
      unfold Matcher.holdsAll
      rw [Bool.and_eq_true, holds_iff_of_compile hfirst, holdsAll_iff_of_compileAll hothers]
      simp

theorem holdsAny_iff_of_compileAll {value : String} :
    ∀ {parts : List Condition} {ms : List Matcher}, compileAll parts = .ok ms →
      (Matcher.holdsAny value ms = true ↔ ∃ part ∈ parts, part.Holds value)
  | [], ms, h => by
      unfold compileAll at h
      cases h
      simp [Matcher.holdsAny]
  | part :: rest, ms, h => by
      unfold compileAll at h
      obtain ⟨first, hfirst, h⟩ := bind_eq_ok_iff.1 h
      obtain ⟨others, hothers, h⟩ := bind_eq_ok_iff.1 h
      cases h
      unfold Matcher.holdsAny
      rw [Bool.or_eq_true, holds_iff_of_compile hfirst, holdsAny_iff_of_compileAll hothers]
      simp

end

end Condition

/-! ## Checks -/

namespace Matcher

theorem check_some_iff {m : Matcher} {fact : Option String} :
    check (some m) fact = true ↔ ∃ value, fact = some value ∧ value ≠ "" ∧ m.holds value = true := by
  cases fact <;> simp [check]

theorem holdsAll_iff {value : String} : ∀ {parts : List Matcher},
    holdsAll value parts = true ↔ ∀ part ∈ parts, part.holds value = true
  | [] => by simp [holdsAll]
  | part :: rest => by
      unfold holdsAll
      rw [Bool.and_eq_true, holdsAll_iff]
      simp

/-- Joined conditions ask for a value that is not empty, unless there are
none of them. -/
theorem check_ofParts_iff {parts : List Matcher} {value : String} :
    check (ofParts parts) (some value) = true
      ↔ parts = [] ∨ value ≠ "" ∧ ∀ part ∈ parts, part.holds value = true := by
  cases parts with
  | nil => simp [ofParts, check]
  | cons part rest =>
    cases rest with
    | nil => simp [ofParts, check]
    | cons second rest =>
      have hparts : ofParts (part :: second :: rest) = some (.all (part :: second :: rest)) := rfl
      rw [hparts, check_some_iff]
      simp only [holds, holdsAll_iff, Option.some.injEq, exists_eq_left']
      simp

end Matcher

namespace Condition

/-- What making an optional condition ready gives. -/
theorem compile?_eq_ok_iff {c : Option Condition} {m : Option Matcher} :
    compile? c = .ok m
      ↔ (c = none ∧ m = none) ∨ ∃ c' m', c = some c' ∧ m = some m' ∧ c'.compile = .ok m' := by
  cases c with
  | none => simp [compile?, eq_comm]
  | some c =>
    unfold compile?
    rw [map_eq_ok_iff]
    constructor
    · rintro ⟨m', hm, rfl⟩
      exact Or.inr ⟨c, m', rfl, rfl, hm⟩
    · rintro (⟨h, _⟩ | ⟨c', m', hc, rfl, hm⟩)
      · cases h
      · cases hc
        exact ⟨m', hm, rfl⟩

theorem check_iff_of_compile? {c : Option Condition} {m : Option Matcher}
    (h : compile? c = .ok m) (fact : Option String) :
    Matcher.check m fact = true ↔ ∀ c', c = some c' → c'.Met fact := by
  rcases compile?_eq_ok_iff.1 h with ⟨rfl, rfl⟩ | ⟨c', m', rfl, rfl, hm⟩
  · simp [Matcher.check]
  · rw [Matcher.check_some_iff]
    simp only [holds_iff_of_compile hm, Option.some.injEq, forall_eq']
    rfl

theorem toList_eq_nil_iff_of_compile? {c : Option Condition} {m : Option Matcher}
    (h : compile? c = .ok m) : m.toList = [] ↔ c = none := by
  rcases compile?_eq_ok_iff.1 h with ⟨rfl, rfl⟩ | ⟨c', m', rfl, rfl, _⟩
  · simp
  · simp

theorem forall_toList_iff_of_compile? {c : Option Condition} {m : Option Matcher}
    (h : compile? c = .ok m) (value : String) :
    (∀ part ∈ m.toList, part.holds value = true) ↔ ∀ c', c = some c' → c'.Holds value := by
  rcases compile?_eq_ok_iff.1 h with ⟨rfl, rfl⟩ | ⟨c', m', rfl, rfl, hm⟩
  · simp
  · simp [holds_iff_of_compile hm]

theorem forall_not_toList_iff_of_compile? {c : Option Condition} {m : Option Matcher}
    (h : compile? c = .ok m) (value : String) :
    (∀ part ∈ (m.map Matcher.not).toList, part.holds value = true)
      ↔ ∀ c', c = some c' → ¬ c'.Holds value := by
  rcases compile?_eq_ok_iff.1 h with ⟨rfl, rfl⟩ | ⟨c', m', rfl, rfl, hm⟩
  · simp
  · simp [Matcher.holds, ← holds_iff_of_compile hm]

end Condition

/-! ## Rules -/

namespace RuleBody

/-- Whether the facts pass a rule. -/
structure Passes (facts : Facts) (rule : RuleBody) : Prop where
  /-- With any condition on the resource, an empty resource passes none. -/
  resource :
    (rule.test = none ∧ rule.includes = none ∧ rule.resource = none ∧ rule.excludes = none)
    ∨ (facts.resource ≠ ""
      ∧ (∀ c, rule.test = some c → c.Holds facts.resource)
      ∧ (∀ c, rule.includes = some c → c.Holds facts.resource)
      ∧ (∀ c, rule.resource = some c → c.Holds facts.resource)
      ∧ (∀ c, rule.excludes = some c → ¬ c.Holds facts.resource))
  realResource : ∀ c, rule.realResource = some c → c.Met (some facts.realResource)
  resourceQuery : ∀ c, rule.resourceQuery = some c → c.Met (some facts.resourceQuery)
  issuer : ∀ c, rule.issuer = some c → c.Met facts.issuer
  compiler : ∀ c, rule.compiler = some c → c.Met facts.compiler

/-- The entries of what a rule at a position uses, each with its own
position: that of the rule unless they are a list. -/
def items (position : String) (rule : RuleBody) : List (String × UseItem) :=
  match rule.loader, rule.uses with
  | some loader, _ => [(position, .loader loader rule.options none)]
  | none, some (.one item) => [(position, item)]
  | none, some (.many items) => items.zipIdx.map fun (item, i) => (numbered position i, item)
  | none, none => []

end RuleBody

/-- What a loader of a rule contributes. -/
def NodeLoader.effect (enforce : Enforce) : NodeLoader → RuleEffect
  | .ready spec => .use spec enforce
  | .malformed loader found => .malformedUse loader found enforce

namespace RuleBody

/-- What a rule at a position contributes by itself: its settings, then the
loaders of its entries. -/
def ownEffects (position : String) (rule : RuleBody) : List RuleEffect :=
  rule.settings.map (fun (key, value) => .setting key value)
    ++ (rule.items position).flatMap fun (position, item) =>
        (item.loaders position).map (NodeLoader.effect (rule.enforce.getD .normal))

theorem loadersFrom_eq_flatMap (position : String) : ∀ (items : List UseItem) (number : Nat),
    loadersFrom position number items
      = (items.zipIdx number).flatMap fun (item, i) => item.loaders (numbered position i)
  | [], _ => rfl
  | item :: rest, number => by
      rw [loadersFrom, loadersFrom_eq_flatMap position rest (number + 1)]
      rfl

theorem loaders_eq_of_ok {position : String} {rule : RuleBody} {loaders : List NodeLoader}
    (h : rule.loaders position = .ok loaders) :
    loaders = (rule.items position).flatMap fun (position, item) => item.loaders position := by
  unfold RuleBody.loaders at h
  unfold items
  cases hl : rule.loader with
  | some loader =>
    cases hu : rule.uses with
    | some uses =>
      rw [hl, hu] at h
      cases h
    | none =>
      rw [hl, hu] at h
      cases h
      simp
  | none =>
    simp only [hl] at h
    split at h
    · cases h
    · cases hu : rule.uses with
      | none =>
        rw [hu] at h
        cases h
        rfl
      | some uses =>
        rw [hu] at h
        cases uses with
        | one item =>
          cases h
          simp
        | many items =>
          cases h
          simp only [loadersFrom_eq_flatMap, List.flatMap_map]

theorem check_resource_iff_of_ok {rule : RuleBody} {m : Option Matcher}
    (h : rule.resourceMatcher = .ok m) (value : String) :
    Matcher.check m (some value) = true
      ↔ (rule.test = none ∧ rule.includes = none ∧ rule.resource = none ∧ rule.excludes = none)
        ∨ (value ≠ ""
          ∧ (∀ c, rule.test = some c → c.Holds value)
          ∧ (∀ c, rule.includes = some c → c.Holds value)
          ∧ (∀ c, rule.resource = some c → c.Holds value)
          ∧ (∀ c, rule.excludes = some c → ¬ c.Holds value)) := by
  unfold resourceMatcher at h
  obtain ⟨test, ht, h⟩ := bind_eq_ok_iff.1 h
  obtain ⟨includes, hi, h⟩ := bind_eq_ok_iff.1 h
  obtain ⟨resource, hr, h⟩ := bind_eq_ok_iff.1 h
  obtain ⟨excludes, he, h⟩ := bind_eq_ok_iff.1 h
  cases h
  rw [Matcher.check_ofParts_iff]
  have hnil : (excludes.map Matcher.not).toList = [] ↔ rule.excludes = none := by
    rw [← Condition.toList_eq_nil_iff_of_compile? he]
    cases excludes <;> simp
  simp only [List.append_eq_nil_iff, List.mem_append, or_imp, forall_and,
    Condition.toList_eq_nil_iff_of_compile? ht, Condition.toList_eq_nil_iff_of_compile? hi,
    Condition.toList_eq_nil_iff_of_compile? hr, hnil,
    Condition.forall_toList_iff_of_compile? ht, Condition.forall_toList_iff_of_compile? hi,
    Condition.forall_toList_iff_of_compile? hr, Condition.forall_not_toList_iff_of_compile? he,
    and_assoc]

end RuleBody

namespace NodeBody

/-- What making a rule ready gives, part by part. -/
theorem eq_of_compile {position : String} {rule : RuleBody} {node : NodeBody}
    (h : compile position rule = .ok node) :
    rule.resourceMatcher = .ok node.resource
    ∧ rule.loaders position = .ok node.loaders
    ∧ Condition.compile? rule.realResource = .ok node.realResource
    ∧ Condition.compile? rule.resourceQuery = .ok node.resourceQuery
    ∧ Condition.compile? rule.issuer = .ok node.issuer
    ∧ Condition.compile? rule.compiler = .ok node.compiler
    ∧ node.settings = rule.settings
    ∧ node.enforce = rule.enforce.getD .normal := by
  unfold compile at h
  obtain ⟨resource, hr, h⟩ := bind_eq_ok_iff.1 h
  obtain ⟨loaders, hl, h⟩ := bind_eq_ok_iff.1 h
  obtain ⟨realResource, hreal, h⟩ := bind_eq_ok_iff.1 h
  obtain ⟨resourceQuery, hq, h⟩ := bind_eq_ok_iff.1 h
  obtain ⟨issuer, hi, h⟩ := bind_eq_ok_iff.1 h
  obtain ⟨compiler, hc, h⟩ := bind_eq_ok_iff.1 h
  cases h
  exact ⟨hr, hl, hreal, hq, hi, hc, rfl, rfl⟩

/-- A rule made ready passes on the same facts. -/
theorem passes_iff_of_compile {position : String} {rule : RuleBody} {node : NodeBody}
    (h : compile position rule = .ok node) (facts : Facts) :
    node.passes facts = true ↔ rule.Passes facts := by
  obtain ⟨hr, _, hreal, hq, hi, hc, _, _⟩ := eq_of_compile h
  unfold passes
  rw [Bool.and_eq_true, Bool.and_eq_true, Bool.and_eq_true, Bool.and_eq_true,
    RuleBody.check_resource_iff_of_ok hr, Condition.check_iff_of_compile? hreal,
    Condition.check_iff_of_compile? hq, Condition.check_iff_of_compile? hc,
    Condition.check_iff_of_compile? hi]
  constructor
  · rintro ⟨⟨⟨⟨h1, h2⟩, h3⟩, h4⟩, h5⟩
    exact ⟨h1, h2, h3, h5, h4⟩
  · rintro ⟨h1, h2, h3, h5, h4⟩
    exact ⟨⟨⟨⟨h1, h2⟩, h3⟩, h4⟩, h5⟩

/-- A rule made ready contributes the same by itself. -/
theorem ownEffects_of_compile {position : String} {rule : RuleBody} {node : NodeBody}
    (h : compile position rule = .ok node) : node.ownEffects = rule.ownEffects position := by
  obtain ⟨_, hl, _, _, _, _, hs, he⟩ := eq_of_compile h
  unfold ownEffects RuleBody.ownEffects
  rw [hs, RuleBody.loaders_eq_of_ok hl, he, List.map_flatMap]
  rfl

end NodeBody

/-! ## Trees of rules -/

namespace RuleNode

theorem compile_eq_ok_iff {position : String} {rule : Rule} {node : RuleNode} :
    compile position rule = .ok node
      ↔ NodeBody.compile position rule.body = .ok node.body
        ∧ compileFrom (position ++ "-rules") 0 rule.rules = .ok node.rules
        ∧ compileFrom (position ++ "-oneOf") 0 rule.oneOf = .ok node.oneOf := by
  obtain ⟨body, rules, oneOf⟩ := rule
  obtain ⟨nodeBody, nodes, branches⟩ := node
  rw [compile]
  constructor
  · intro h
    obtain ⟨b, hb, h⟩ := bind_eq_ok_iff.1 h
    obtain ⟨rs, hr, h⟩ := bind_eq_ok_iff.1 h
    obtain ⟨os, ho, h⟩ := bind_eq_ok_iff.1 h
    cases h
    exact ⟨hb, hr, ho⟩
  · rintro ⟨hb, hr, ho⟩
    exact bind_eq_ok_iff.2 ⟨_, hb, bind_eq_ok_iff.2 ⟨_, hr, bind_eq_ok_iff.2 ⟨_, ho, rfl⟩⟩⟩

theorem compileFrom_cons_eq_ok_iff {position : String} {number : Nat} {rule : Rule}
    {rest : List Rule} {nodes : List RuleNode} :
    compileFrom position number (rule :: rest) = .ok nodes
      ↔ ∃ first others, nodes = first :: others
        ∧ compile (numbered position number) rule = .ok first
        ∧ compileFrom position (number + 1) rest = .ok others := by
  rw [compileFrom]
  constructor
  · intro h
    obtain ⟨first, hf, h⟩ := bind_eq_ok_iff.1 h
    obtain ⟨others, ho, h⟩ := bind_eq_ok_iff.1 h
    cases h
    exact ⟨first, others, rfl, hf, ho⟩
  · rintro ⟨first, others, rfl, hf, ho⟩
    exact bind_eq_ok_iff.2 ⟨_, hf, bind_eq_ok_iff.2 ⟨_, ho, rfl⟩⟩

end RuleNode

end ImportChain
