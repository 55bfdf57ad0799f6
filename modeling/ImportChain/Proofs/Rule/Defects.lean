/-
ImportChain.Proofs.Rule.Defects — what is wrong with rules, and which
defect is reported.

`Rule.defects` lists all defects of the rules as written, the rules in
pre-order and for each one the conditions on the resource, the keys that
do not go together, then the other conditions. `compile_first_defect` is
the main statement: making rules ready fails exactly if a rule somewhere
in the tree is ill-formed, and with the first defect of the list.

Every step of making ready stops at its own first defect, so that the
list of a whole is that of its parts, one after the other
(`Outcome.failure?_bind_eq_head?`).
-/
import ImportChain.Proofs.Outcome
import ImportChain.Proofs.Rule.Place

namespace ImportChain

open Outcome

/-! ## Conditions -/

namespace Condition

mutual

/-- The patterns of a condition at any depth, from left to right. -/
def patterns : Condition → List String
  | .beginsWith _ => []
  | .regex pattern => [pattern]
  | .all parts => patternsOfAll parts
  | .any parts => patternsOfAll parts
  | .list parts => patternsOfAll parts
  | .not part => patterns part

def patternsOfAll : List Condition → List String
  | [] => []
  | part :: rest => patterns part ++ patternsOfAll rest

end

/-- What is wrong with a pattern, if it is no regular expression. -/
def patternDefect? (pattern : String) : Option RuleError :=
  if Regex.Pattern.ofText? pattern = none then some (.condition pattern regexMessage) else none

/-- What is wrong with a condition, from left to right. -/
def defects (c : Condition) : List RuleError := c.patterns.filterMap patternDefect?

mutual

/-- A condition fails as its first pattern that is no regular expression. -/
theorem failure?_compile : ∀ c : Condition, failure? c.compile = c.defects.head?
  | .beginsWith text => by
      unfold compile defects patterns
      rfl
  | .regex pattern => by
      unfold compile defects patterns
      cases h : Regex.Pattern.ofText? pattern <;> simp [failure?, patternDefect?, h]
  | .all parts => by
      unfold compile defects patterns
      rw [failure?_map, failure?_compileAll]
  | .any parts => by
      unfold compile defects patterns
      rw [failure?_map, failure?_compileAll]
  | .list parts => by
      unfold compile defects patterns
      rw [failure?_map, failure?_compileAll]
  | .not part => by
      unfold compile defects patterns
      rw [failure?_map, failure?_compile]
      rfl

theorem failure?_compileAll : ∀ parts : List Condition,
    failure? (compileAll parts) = ((patternsOfAll parts).filterMap patternDefect?).head?
  | [] => by
      unfold compileAll patternsOfAll
      rfl
  | part :: rest => by
      unfold compileAll patternsOfAll
      rw [List.filterMap_append]
      refine failure?_bind_eq_head? (failure?_compile part) ?_
      intro first _
      rw [← failure?_compileAll rest]
      exact failure?_map (compileAll rest) (first :: ·)

end

theorem failure?_compile? (c : Option Condition) :
    failure? (compile? c) = (c.toList.flatMap defects).head? := by
  cases c with
  | none => rfl
  | some c =>
    unfold compile?
    rw [failure?_map, failure?_compile]
    simp

end Condition

/-! ## Rules by themselves -/

namespace RuleBody

/-- The conditions of a rule on the resource. -/
def resourceConditions (rule : RuleBody) : List Condition :=
  rule.test.toList ++ rule.includes.toList ++ rule.resource.toList ++ rule.excludes.toList

/-- The other conditions of a rule. -/
def otherConditions (rule : RuleBody) : List Condition :=
  rule.realResource.toList ++ rule.resourceQuery.toList ++ rule.issuer.toList
    ++ rule.compiler.toList

/-- The keys of a rule at a position that do not go together. -/
def keyDefects (position : String) (rule : RuleBody) : List RuleError :=
  if rule.loader.isSome ∧ rule.uses.isSome then [.loaderWithUse position]
  else if rule.options.isSome ∧ rule.loader = none then [.optionsWithoutLoader position]
  else []

/-- What is wrong with a rule at a position by itself. -/
def defects (position : String) (rule : RuleBody) : List RuleError :=
  rule.resourceConditions.flatMap Condition.defects ++ rule.keyDefects position
    ++ rule.otherConditions.flatMap Condition.defects

/-- Whether something is wrong with a rule by itself. -/
inductive IllFormed (rule : RuleBody) : Prop where
  | loaderWithUse (hl : rule.loader.isSome) (hu : rule.uses.isSome)
  | optionsWithoutLoader (ho : rule.options.isSome) (hl : rule.loader = none)
  /-- A pattern in one of the eight conditions is no regular expression. -/
  | condition {c : Condition} {pattern : String}
    (hc : c ∈ rule.resourceConditions ++ rule.otherConditions) (hp : pattern ∈ c.patterns)
    (h : Regex.Pattern.ofText? pattern = none)

theorem failure?_loaders (rule : RuleBody) (position : String) :
    failure? (rule.loaders position) = (rule.keyDefects position).head? := by
  unfold loaders keyDefects
  cases rule.loader with
  | some loader => cases rule.uses <;> simp [failure?]
  | none =>
    cases ho : rule.options with
    | some options => simp [failure?]
    | none =>
      simp only [Option.isSome_none, Bool.false_eq_true, if_false, false_and]
      cases rule.uses with
      | none => rfl
      | some uses => cases uses <;> rfl

theorem failure?_resourceMatcher (rule : RuleBody) :
    failure? rule.resourceMatcher = (rule.resourceConditions.flatMap Condition.defects).head? := by
  unfold resourceMatcher resourceConditions
  simp only [List.flatMap_append, List.append_assoc]
  refine failure?_bind_eq_head? (Condition.failure?_compile? _) fun test _ => ?_
  refine failure?_bind_eq_head? (Condition.failure?_compile? _) fun includes _ => ?_
  refine failure?_bind_eq_head? (Condition.failure?_compile? _) fun resource _ => ?_
  rw [← Condition.failure?_compile? rule.excludes]
  exact failure?_map (Condition.compile? rule.excludes) _

theorem mem_defects_iff {rule : RuleBody} {position : String} {e : RuleError} :
    e ∈ rule.defects position
      ↔ e ∈ rule.keyDefects position
        ∨ ∃ c ∈ rule.resourceConditions ++ rule.otherConditions, e ∈ c.defects := by
  unfold defects
  simp only [List.mem_append, List.mem_flatMap, or_and_right, exists_or]
  exact ⟨fun h => h.elim (fun h => h.elim (Or.inr ∘ Or.inl) Or.inl) (Or.inr ∘ Or.inr),
    fun h => h.elim (Or.inl ∘ Or.inr) fun h => h.elim (Or.inl ∘ Or.inl) Or.inr⟩

theorem exists_mem_keyDefects_iff {rule : RuleBody} {position : String} :
    (∃ e, e ∈ rule.keyDefects position)
      ↔ (rule.loader.isSome ∧ rule.uses.isSome) ∨ (rule.options.isSome ∧ rule.loader = none) := by
  unfold keyDefects
  split
  · next h => simp [h]
  · next h =>
    split
    · next h' => simp [h']
    · next h' => simp [h, h']

/-- Something is wrong with a rule if it is ill-formed. -/
theorem exists_mem_defects_iff {rule : RuleBody} {position : String} :
    (∃ e, e ∈ rule.defects position) ↔ rule.IllFormed := by
  simp only [mem_defects_iff, exists_or, exists_mem_keyDefects_iff]
  constructor
  · intro h
    rcases h with (⟨hl, hu⟩ | ⟨ho, hl⟩) | ⟨e, c, hc, he⟩
    · exact .loaderWithUse hl hu
    · exact .optionsWithoutLoader ho hl
    · obtain ⟨pattern, hp, hd⟩ := List.mem_filterMap.1 he
      unfold Condition.patternDefect? at hd
      split at hd
      · next h => exact .condition hc hp h
      · cases hd
  · intro h
    cases h with
    | loaderWithUse hl hu => exact Or.inl (Or.inl ⟨hl, hu⟩)
    | optionsWithoutLoader ho hl => exact Or.inl (Or.inr ⟨ho, hl⟩)
    | @condition c pattern hc hp h =>
      have hd : Condition.patternDefect? pattern
          = some (.condition pattern Condition.regexMessage) := by
        unfold Condition.patternDefect?
        rw [if_pos h]
      exact Or.inr ⟨_, c, hc, List.mem_filterMap.2 ⟨pattern, hp, hd⟩⟩

end RuleBody

theorem NodeBody.failure?_compile (position : String) (rule : RuleBody) :
    failure? (compile position rule) = (rule.defects position).head? := by
  unfold compile RuleBody.defects RuleBody.otherConditions
  simp only [List.flatMap_append, List.append_assoc]
  refine failure?_bind_eq_head? rule.failure?_resourceMatcher fun resource _ => ?_
  refine failure?_bind_eq_head? (rule.failure?_loaders position) fun loaders _ => ?_
  refine failure?_bind_eq_head? (Condition.failure?_compile? _) fun realResource _ => ?_
  refine failure?_bind_eq_head? (Condition.failure?_compile? _) fun resourceQuery _ => ?_
  refine failure?_bind_eq_head? (Condition.failure?_compile? _) fun issuer _ => ?_
  rw [← Condition.failure?_compile? rule.compiler]
  exact failure?_map (Condition.compile? rule.compiler) _

/-! ## Trees of rules -/

/-- What is wrong with the rule at a place by itself. -/
def Place.defects (rules : List Rule) (p : Place) : List RuleError :=
  match p.rule? rules with
  | some rule => rule.body.defects p.text
  | none => []

/-- What is wrong with rules, a rule before those below it. -/
def Rule.defects (rules : List Rule) : List RuleError :=
  (Place.preorder rules).flatMap (Place.defects rules)

theorem Place.defects_of_rule? {rules : List Rule} {p : Place} {rule : Rule}
    (h : p.rule? rules = some rule) : p.defects rules = rule.body.defects p.text := by
  unfold defects
  rw [h]

namespace RuleNode

mutual

theorem failure?_compile {rules : List Rule} : ∀ {rule : Rule} {p : Place},
    p.rule? rules = some rule →
      failure? (compile p.text rule) = ((rule.places p).flatMap (Place.defects rules)).head?
  | ⟨body, nested, oneOf⟩, p, hp => by
      rw [compile, Rule.places, List.flatMap_cons, List.flatMap_append, Place.defects_of_rule? hp]
      refine failure?_bind_eq_head? (NodeBody.failure?_compile _ body) fun nodeBody _ => ?_
      refine failure?_bind_eq_head?
        (failure?_compileFrom (Place.rule?_under hp .nested) fun _ => rfl) fun nodes _ => ?_
      have hbranches := failure?_compileFrom (Place.rule?_under hp .branch) fun _ => rfl
      exact (failure?_map (compileFrom _ 0 oneOf) _).trans hbranches

theorem failure?_compileFrom {rules : List Rule} {site : Nat → Place} {position : String} :
    ∀ {group : List Rule} {number : Nat},
      (∀ i, (site (number + i)).rule? rules = group[i]?) →
      (∀ i, (site i).text = numbered position i) →
        failure? (compileFrom position number group)
          = ((Rule.placesFrom site number group).flatMap (Place.defects rules)).head?
  | [], number, _, _ => by
      rw [compileFrom, Rule.placesFrom]
      rfl
  | rule :: rest, number, hrule, htext => by
      rw [compileFrom, Rule.placesFrom, List.flatMap_append, ← htext]
      refine failure?_bind_eq_head? (failure?_compile (hrule 0)) fun first _ => ?_
      rw [← failure?_compileFrom (Place.rule?_tail hrule) htext]
      exact failure?_map (compileFrom position (number + 1) rest) _

end

end RuleNode

theorem Rule.exists_mem_defects_iff {rules : List Rule} :
    (∃ e, e ∈ Rule.defects rules)
      ↔ ∃ (p : Place) (rule : Rule), p.rule? rules = some rule ∧ rule.body.IllFormed := by
  unfold defects
  simp only [List.mem_flatMap]
  constructor
  · intro h
    obtain ⟨e, p, hp, he⟩ := h
    obtain ⟨rule, hrule⟩ := Option.isSome_iff_exists.1 (Place.mem_preorder_iff.1 hp)
    rw [Place.defects_of_rule? hrule] at he
    exact ⟨p, rule, hrule, RuleBody.exists_mem_defects_iff.1 ⟨e, he⟩⟩
  · intro h
    obtain ⟨p, rule, hrule, hill⟩ := h
    obtain ⟨e, he⟩ := RuleBody.exists_mem_defects_iff.2 hill
    refine ⟨e, p, Place.mem_preorder_iff.2 (by simp [hrule]), ?_⟩
    rw [Place.defects_of_rule? hrule]
    exact he

namespace RuleSet

theorem failure?_compile (rules : List Rule) :
    failure? (compile rules) = (Rule.defects rules).head? := by
  unfold compile Rule.defects Place.preorder
  rw [failure?_map]
  exact RuleNode.failure?_compileFrom (Place.rule?_top rules) fun _ => rfl

/-- Making rules ready fails with the first of their defects, and so exactly
if a rule at some place is ill-formed, whether or not anything could come to
match it. -/
theorem compile_first_defect (rules : List Rule) :
    (∀ e, compile rules = .error e ↔ (Rule.defects rules).head? = some e)
    ∧ ((∃ e, compile rules = .error e)
      ↔ ∃ (p : Place) (rule : Rule), p.rule? rules = some rule ∧ rule.body.IllFormed) := by
  have hfirst : ∀ e, compile rules = .error e ↔ (Rule.defects rules).head? = some e := by
    intro e
    rw [← failure?_compile, failure?_eq_some_iff]
  refine ⟨hfirst, ?_⟩
  simp only [hfirst, ← Rule.exists_mem_defects_iff]
  cases Rule.defects rules <;> simp

end RuleSet

end ImportChain
