/-
ImportChain.Proofs.Rule.Activity — which rules of a tree take part for a
resource.

`Place.Active` says it of the rules as written: a rule takes part if it
passes, the rule above it takes part, and no earlier branch passes where
it is a branch. `exec_eq_flatMap_active` is the main statement: what a
set of rules gives is what its active rules contribute by themselves, in
pre-order.

The matcher walks the tree and skips what it does not enter. The proof
goes along the same walk: below a rule that is not active nothing is
(`active_of_within`), and after a branch that passes no other is.
-/
import ImportChain.Proofs.Rule.Meaning
import ImportChain.Proofs.Rule.Place

namespace ImportChain

open Outcome

namespace Place

/-- Whether the facts pass the rule at a place. -/
def PassesAt (facts : Facts) (rules : List Rule) (p : Place) : Prop :=
  ∃ rule, p.rule? rules = some rule ∧ rule.body.Passes facts

/-- Whether the rule at a place takes part. -/
def Active (facts : Facts) (rules : List Rule) : Place → Prop
  | top i => PassesAt facts rules (top i)
  | under p .nested i => p.Active facts rules ∧ PassesAt facts rules (under p .nested i)
  | under p .branch i =>
    p.Active facts rules ∧ PassesAt facts rules (under p .branch i)
      ∧ ∀ j < i, ¬ PassesAt facts rules (under p .branch j)

/-- What the rule at a place contributes by itself. -/
def ownEffects (rules : List Rule) (p : Place) : List RuleEffect :=
  match p.rule? rules with
  | some rule => rule.body.ownEffects p.text
  | none => []

variable {facts : Facts} {rules : List Rule}

theorem passesAt_of_active : ∀ {p : Place}, p.Active facts rules → p.PassesAt facts rules
  | top _, h => h
  | under _ .nested _, h => h.2
  | under _ .branch _, h => h.2.1

theorem passesAt_iff_of_rule? {p : Place} {rule : Rule} (h : p.rule? rules = some rule) :
    p.PassesAt facts rules ↔ rule.body.Passes facts := by
  unfold PassesAt
  rw [h]
  simp

/-- Above an active rule every rule is active. -/
theorem active_of_within {p : Place} : ∀ {q : Place},
    Within p q → q.Active facts rules → p.Active facts rules
  | top i, hw, h => by
      have hp : p = top i := hw
      rw [hp]
      exact h
  | under q group i, hw, h => by
      rcases hw with rfl | hw
      · exact h
      · cases group with
        | nested => exact active_of_within hw h.1
        | branch => exact active_of_within hw h.1

open Classical in
/-- What the active places of a list contribute. -/
noncomputable def contributed (facts : Facts) (rules : List Rule) (places : List Place) :
    List RuleEffect :=
  (places.filter (fun p => p.Active facts rules)).flatMap (ownEffects rules)

theorem contributed_append (ps qs : List Place) :
    contributed facts rules (ps ++ qs)
      = contributed facts rules ps ++ contributed facts rules qs := by
  unfold contributed
  rw [List.filter_append, List.flatMap_append]

theorem contributed_eq_nil {ps : List Place} (h : ∀ p ∈ ps, ¬ p.Active facts rules) :
    contributed facts rules ps = [] := by
  unfold contributed
  rw [List.filter_eq_nil_iff.2 fun p hp => by simpa using h p hp]
  rfl

theorem contributed_cons_of_active {p : Place} (h : p.Active facts rules) (ps : List Place) :
    contributed facts rules (p :: ps) = ownEffects rules p ++ contributed facts rules ps := by
  unfold contributed
  rw [List.filter_cons_of_pos (by simpa using h), List.flatMap_cons]

/-- Nothing below an inactive rule contributes. -/
theorem contributed_places_of_not_active {p : Place} (h : ¬ p.Active facts rules) (rule : Rule) :
    contributed facts rules (rule.places p) = [] :=
  contributed_eq_nil fun _ hq hactive =>
    h (active_of_within (Rule.within_of_mem_places hq) hactive)

end Place

/-! ## The walk -/

namespace RuleNode

theorem effects_of_passes {facts : Facts} {node : RuleNode} (h : node.body.passes facts = true) :
    node.effects facts
      = node.body.ownEffects ++ effectsOfAll facts node.rules ++ effectsOfFirst facts node.oneOf := by
  obtain ⟨body, rules, oneOf⟩ := node
  rw [effects, if_pos h]

theorem effects_of_not_passes {facts : Facts} {node : RuleNode}
    (h : ¬ node.body.passes facts = true) : node.effects facts = [] := by
  obtain ⟨body, rules, oneOf⟩ := node
  rw [effects, if_neg h]

end RuleNode

namespace Place

section Walk

variable {facts : Facts} {rules : List Rule}

/-- What a node gives when its rule passes is what its rule contributes by
itself, then what its groups do. -/
theorem contributed_places_of_active {p : Place} {rule : Rule} {node : RuleNode}
    (hp : p.rule? rules = some rule) (hc : NodeBody.compile p.text rule.body = .ok node.body)
    (h : p.Active facts rules)
    (hnested : contributed facts rules (Rule.placesFrom (p.under .nested) 0 rule.rules)
      = RuleNode.effectsOfAll facts node.rules)
    (hbranch : contributed facts rules (Rule.placesFrom (p.under .branch) 0 rule.oneOf)
      = RuleNode.effectsOfFirst facts node.oneOf) :
    contributed facts rules (rule.places p) = node.effects facts := by
  have hpasses := (passesAt_iff_of_rule? hp).1 (passesAt_of_active h)
  have hown : ownEffects rules p = node.body.ownEffects := by
    unfold ownEffects
    rw [hp, NodeBody.ownEffects_of_compile hc]
  have hplaces : rule.places p = p :: (Rule.placesFrom (p.under .nested) 0 rule.rules
      ++ Rule.placesFrom (p.under .branch) 0 rule.oneOf) := by
    obtain ⟨body, nested, oneOf⟩ := rule
    rw [Rule.places]
  rw [hplaces, contributed_cons_of_active h, contributed_append, hown, hnested, hbranch,
    RuleNode.effects_of_passes ((NodeBody.passes_iff_of_compile hc facts).2 hpasses),
    List.append_assoc]

mutual

theorem contributed_places : ∀ {rule : Rule} {p : Place} {node : RuleNode},
    p.rule? rules = some rule → RuleNode.compile p.text rule = .ok node → p.Active facts rules →
      contributed facts rules (rule.places p) = node.effects facts
  | ⟨body, nested, oneOf⟩, p, node, hp, hc, h => by
      obtain ⟨hbody, hrules, hone⟩ := RuleNode.compile_eq_ok_iff.1 hc
      refine contributed_places_of_active hp hbody h ?_ ?_
      · refine contributed_placesFrom_of_all (rule?_under hp .nested) (fun _ => rfl) (fun i => ?_) hrules
        exact ⟨fun hi => hi.2, fun hi => ⟨h, hi⟩⟩
      · refine contributed_placesFrom_of_first (rule?_under hp .branch) (fun _ => rfl) (fun i => ?_)
          (fun j hj => absurd hj (Nat.not_lt_zero j)) hone
        exact ⟨fun hi => hi.2, fun hi => ⟨h, hi⟩⟩

/-- Rules that stand side by side contribute if they pass. -/
theorem contributed_placesFrom_of_all {site : Nat → Place} {position : String} :
    ∀ {group : List Rule} {number : Nat} {nodes : List RuleNode},
      (∀ i, (site (number + i)).rule? rules = group[i]?) →
      (∀ i, (site i).text = numbered position i) →
      (∀ i, (site i).Active facts rules ↔ (site i).PassesAt facts rules) →
      RuleNode.compileFrom position number group = .ok nodes →
      contributed facts rules (Rule.placesFrom site number group)
        = RuleNode.effectsOfAll facts nodes
  | [], number, nodes, _, _, _, hc => by
      rw [RuleNode.compileFrom] at hc
      cases hc
      rw [Rule.placesFrom, RuleNode.effectsOfAll]
      rfl
  | rule :: rest, number, nodes, hrule, htext, hactive, hc => by
      obtain ⟨first, others, rfl, hf, ho⟩ := RuleNode.compileFrom_cons_eq_ok_iff.1 hc
      have hsite : (site number).rule? rules = some rule := hrule 0
      rw [← htext] at hf
      have hrest : contributed facts rules (Rule.placesFrom site (number + 1) rest)
          = RuleNode.effectsOfAll facts others :=
        contributed_placesFrom_of_all (rule?_tail hrule) htext hactive ho
      rw [Rule.placesFrom, RuleNode.effectsOfAll, contributed_append, hrest]
      by_cases h : (site number).Active facts rules
      · rw [contributed_places hsite hf h]
      · have hfails : ¬ first.body.passes facts = true := by
          rw [NodeBody.passes_iff_of_compile (RuleNode.compile_eq_ok_iff.1 hf).1,
            ← passesAt_iff_of_rule? hsite, ← hactive]
          exact h
        rw [contributed_places_of_not_active h, RuleNode.effects_of_not_passes hfails]

/-- Of branches the first that passes contributes. -/
theorem contributed_placesFrom_of_first {site : Nat → Place} {position : String} :
    ∀ {group : List Rule} {number : Nat} {nodes : List RuleNode},
      (∀ i, (site (number + i)).rule? rules = group[i]?) →
      (∀ i, (site i).text = numbered position i) →
      (∀ i, (site i).Active facts rules
        ↔ (site i).PassesAt facts rules ∧ ∀ j < i, ¬ (site j).PassesAt facts rules) →
      (∀ j < number, ¬ (site j).PassesAt facts rules) →
      RuleNode.compileFrom position number group = .ok nodes →
      contributed facts rules (Rule.placesFrom site number group)
        = RuleNode.effectsOfFirst facts nodes
  | [], number, nodes, _, _, _, _, hc => by
      rw [RuleNode.compileFrom] at hc
      cases hc
      rw [Rule.placesFrom, RuleNode.effectsOfFirst]
      rfl
  | rule :: rest, number, nodes, hrule, htext, hactive, hearlier, hc => by
      obtain ⟨first, others, rfl, hf, ho⟩ := RuleNode.compileFrom_cons_eq_ok_iff.1 hc
      have hsite : (site number).rule? rules = some rule := hrule 0
      rw [← htext] at hf
      have hpasses : first.body.passes facts = true ↔ (site number).PassesAt facts rules := by
        rw [NodeBody.passes_iff_of_compile (RuleNode.compile_eq_ok_iff.1 hf).1,
          passesAt_iff_of_rule? hsite]
      rw [Rule.placesFrom, RuleNode.effectsOfFirst, contributed_append]
      by_cases h : (site number).PassesAt facts rules
      · -- every later branch has this one before it
        have hlater : contributed facts rules (Rule.placesFrom site (number + 1) rest) = [] := by
          refine contributed_eq_nil fun q hq hq' => ?_
          obtain ⟨i, hi⟩ := Rule.within_of_mem_placesFrom hq
          exact ((hactive _).1 (active_of_within hi hq')).2 number (by omega) h
        rw [contributed_places hsite hf ((hactive number).2 ⟨h, hearlier⟩), hlater,
          if_pos (hpasses.2 h), List.append_nil]
      · have hnot : ¬ (site number).Active facts rules := fun ha => h (passesAt_of_active ha)
        rw [contributed_places_of_not_active hnot, if_neg fun hp => h (hpasses.1 hp),
          List.nil_append]
        refine contributed_placesFrom_of_first (rule?_tail hrule) htext hactive (fun j hj => ?_) ho
        rcases Nat.lt_succ_iff_lt_or_eq.1 hj with hj | rfl
        · exact hearlier j hj
        · exact h

end

end Walk

end Place

namespace RuleSet

theorem exec_eq_contributed {rules : List Rule} {set : RuleSet} (h : compile rules = .ok set)
    (facts : Facts) : set.exec facts = Place.contributed facts rules (Place.preorder rules) := by
  obtain ⟨nodes, hn, rfl⟩ := map_eq_ok_iff.1 h
  exact (Place.contributed_placesFrom_of_all (Place.rule?_top rules) (fun _ => rfl)
    (fun _ => Iff.rfl) hn).symm

/-- What a rule set gives is contributed by one of its rules. -/
theorem exists_place_of_mem_exec {rules : List Rule} {set : RuleSet}
    (h : compile rules = .ok set) {facts : Facts} {effect : RuleEffect}
    (he : effect ∈ set.exec facts) :
    ∃ p ∈ Place.preorder rules, effect ∈ Place.ownEffects rules p := by
  rw [exec_eq_contributed h] at he
  obtain ⟨p, hp, heffect⟩ := List.mem_flatMap.1 he
  exact ⟨p, (List.mem_filter.1 hp).1, heffect⟩

open Classical in
/-- What a rule set gives is what its active rules contribute by themselves,
in pre-order; every rule of the tree has one place in that order. -/
theorem exec_eq_flatMap_active {rules : List Rule} {set : RuleSet}
    (h : compile rules = .ok set) (facts : Facts) :
    set.exec facts
      = ((Place.preorder rules).filter (fun p => p.Active facts rules)).flatMap
          (Place.ownEffects rules)
    ∧ (Place.preorder rules).Nodup
    ∧ ∀ p, p ∈ Place.preorder rules ↔ (p.rule? rules).isSome := by
  exact ⟨exec_eq_contributed h facts, Place.nodup_preorder rules, fun _ => Place.mem_preorder_iff⟩

/-- Rules of which the outer one has a nested rule and two branches. -/
def styleRules : List Rule :=
  [⟨{ test := some (.regex "\\.css$"), excludes := some (.beginsWith "/lib"),
      uses := some (.many [.request "a-loader!b-loader?x", .loader "c-loader" (some (.obj [])) none]),
      enforce := some .post },
    [⟨{ issuer := some (.not (.regex "\\.css$")), moduleType := some "css" }, [], []⟩],
    [⟨{ resourceQuery := some (.list [.beginsWith "?raw"]) }, [], []⟩,
     ⟨{ loader := some "d-loader" }, [], []⟩]⟩]

/-- A stylesheet imported by a script. -/
def styleFacts : Facts :=
  { resource := "/app/a.css", resourceQuery := "?raw", issuer := some "/app/b.js" }

open Classical in
/-- The first branch passes and contributes nothing; the second is not
active for all that. -/
theorem flatMap_active_styleRules :
    ∃ set, compile styleRules = .ok set
      ∧ ((Place.preorder styleRules).filter (fun p => p.Active styleFacts styleRules)).flatMap
          (Place.ownEffects styleRules)
        = [.use ⟨"a-loader", .absent, none⟩ .post, .use ⟨"b-loader", .inline "x", none⟩ .post,
           .use ⟨"c-loader", .structured [], some "ref--0-1"⟩ .post,
           .setting "type" (.str "css")] := by
  have hgives : (compile styleRules).toOption.map (fun set => set.exec styleFacts)
      = some [.use ⟨"a-loader", .absent, none⟩ .post, .use ⟨"b-loader", .inline "x", none⟩ .post,
          .use ⟨"c-loader", .structured [], some "ref--0-1"⟩ .post,
          .setting "type" (.str "css")] := by decide +kernel
  cases h : compile styleRules with
  | error e =>
    rw [h] at hgives
    cases hgives
  | ok set =>
    rw [h] at hgives
    refine ⟨set, rfl, ?_⟩
    rw [← (exec_eq_flatMap_active h styleFacts).1]
    exact Option.some.inj hgives

end RuleSet

end ImportChain
