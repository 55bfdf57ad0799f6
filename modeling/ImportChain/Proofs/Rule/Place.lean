/-
ImportChain.Proofs.Rule.Place — the rules of a list with those below them,
each by its place.

`Place.preorder` lists the places of a rule list: a rule, then what is
below it, its nested rules before its branches. Every place with a rule
is listed (`mem_preorder_iff`), and only once (`nodup_preorder`).

A place knows what it is below, so that a statement about a rule and its
parents is a recursion on places.
-/
import ImportChain.Rule.Set

namespace ImportChain

/-- The two groups of rules below a rule. -/
inductive RuleGroup where
  /-- Rules that apply besides the one above. -/
  | nested
  /-- Rules of which the first that passes applies. -/
  | branch
  deriving Repr, DecidableEq

namespace RuleGroup

/-- The rules of a group. -/
def of (rule : Rule) : RuleGroup → List Rule
  | nested => rule.rules
  | branch => rule.oneOf

/-- How identities spell a group. -/
def text : RuleGroup → String
  | nested => "-rules"
  | branch => "-oneOf"

end RuleGroup

/-- Where a rule stands: at the top, or in a group below the rule at another
place. -/
inductive Place where
  | top (number : Nat)
  | under (parent : Place) (group : RuleGroup) (number : Nat)
  deriving Repr, DecidableEq

namespace Place

/-- The rule at a place. -/
def rule? (rules : List Rule) : Place → Option Rule
  | top i => rules[i]?
  | under p group i => (p.rule? rules).bind fun parent => (group.of parent)[i]?

/-- The position of the rule at a place, as identities spell it. -/
def text : Place → String
  | top i => numbered "ref-" i
  | under p group i => numbered (p.text ++ group.text) i

/-- How many rules are above a place. -/
def depth : Place → Nat
  | top _ => 0
  | under p _ _ => p.depth + 1

/-- Whether a place is `p` or below it. -/
def Within (p : Place) : Place → Prop
  | top i => p = top i
  | under q group i => p = under q group i ∨ Within p q

end Place

/-! ## Listing -/

mutual

/-- The places of a rule and of those below it. -/
def Rule.places (place : Place) : Rule → List Place
  | ⟨_, rules, oneOf⟩ =>
    place :: (Rule.placesFrom (place.under .nested) 0 rules
      ++ Rule.placesFrom (place.under .branch) 0 oneOf)

/-- The places of the rules of a list and of those below them; `site` gives
the place of the rule with a number. -/
def Rule.placesFrom (site : Nat → Place) (number : Nat) : List Rule → List Place
  | [] => []
  | rule :: rest => Rule.places (site number) rule ++ Rule.placesFrom site (number + 1) rest

end

/-- All places of a rule list, a rule before those below it. -/
def Place.preorder (rules : List Rule) : List Place := Rule.placesFrom Place.top 0 rules

namespace Rule

/-- What a list of rules has below it is below one of them. -/
theorem mem_placesFrom_iff {site : Nat → Place} {q : Place} :
    ∀ {rules : List Rule} {number : Nat}, q ∈ placesFrom site number rules
      ↔ ∃ (i : Nat) (rule : Rule), rules[i]? = some rule ∧ q ∈ rule.places (site (number + i))
  | [], number => by simp [placesFrom]
  | rule :: rest, number => by
      rw [placesFrom, List.mem_append, mem_placesFrom_iff]
      constructor
      · rintro (h | ⟨i, r, hr, h⟩)
        · exact ⟨0, rule, rfl, h⟩
        · exact ⟨i + 1, r, hr, by rwa [Nat.add_right_comm] at h⟩
      · rintro ⟨i, r, hr, h⟩
        cases i with
        | zero =>
          cases hr
          exact Or.inl h
        | succ i => exact Or.inr ⟨i, r, hr, by rwa [Nat.add_right_comm]⟩

/-- A rule's places are its own and those of the rules in its groups. -/
theorem mem_places_iff {place q : Place} {rule : Rule} :
    q ∈ rule.places place
      ↔ q = place ∨ ∃ (group : RuleGroup) (i : Nat) (r : Rule),
          (group.of rule)[i]? = some r ∧ q ∈ r.places (place.under group i) := by
  have hsites : q ∈ rule.places place
      ↔ q = place ∨ q ∈ placesFrom (place.under .nested) 0 rule.rules
        ∨ q ∈ placesFrom (place.under .branch) 0 rule.oneOf := by
    obtain ⟨body, rules, oneOf⟩ := rule
    rw [places, List.mem_cons, List.mem_append]
  rw [hsites, mem_placesFrom_iff, mem_placesFrom_iff]
  simp only [Nat.zero_add]
  constructor
  · rintro (h | ⟨i, r, hr, h⟩ | ⟨i, r, hr, h⟩)
    · exact Or.inl h
    · exact Or.inr ⟨.nested, i, r, hr, h⟩
    · exact Or.inr ⟨.branch, i, r, hr, h⟩
  · rintro (h | ⟨group, i, r, hr, h⟩)
    · exact Or.inl h
    · cases group with
      | nested => exact Or.inr (Or.inl ⟨i, r, hr, h⟩)
      | branch => exact Or.inr (Or.inr ⟨i, r, hr, h⟩)

theorem self_mem_places (place : Place) (rule : Rule) : place ∈ rule.places place :=
  mem_places_iff.2 (Or.inl rfl)

end Rule

namespace Place

theorem rule?_top (rules : List Rule) (i : Nat) : (top (0 + i)).rule? rules = rules[i]? := by
  rw [Nat.zero_add]
  rfl

theorem rule?_under {rules : List Rule} {p : Place} {rule : Rule} (h : p.rule? rules = some rule)
    (group : RuleGroup) (i : Nat) :
    (p.under group (0 + i)).rule? rules = (group.of rule)[i]? := by
  rw [Nat.zero_add, rule?, h]
  rfl

/-- Where the rules of a list stand, those after the first stand at the next
numbers. -/
theorem rule?_tail {rules : List Rule} {site : Nat → Place} {rule : Rule} {rest : List Rule}
    {number : Nat} (h : ∀ i, (site (number + i)).rule? rules = (rule :: rest)[i]?) (i : Nat) :
    (site (number + 1 + i)).rule? rules = rest[i]? := by
  rw [Nat.add_assoc, Nat.add_comm 1]
  exact h (i + 1)

theorem mem_preorder_iff_exists {rules : List Rule} {q : Place} :
    q ∈ preorder rules ↔ ∃ (i : Nat) (rule : Rule), rules[i]? = some rule ∧ q ∈ rule.places (top i) := by
  unfold preorder
  rw [Rule.mem_placesFrom_iff]
  simp only [Nat.zero_add]

theorem places_subset_preorder {rules : List Rule} : ∀ {p : Place} {rule : Rule},
    p.rule? rules = some rule → ∀ q ∈ rule.places p, q ∈ preorder rules
  | top i, rule, h, q, hq => mem_preorder_iff_exists.2 ⟨i, rule, h, hq⟩
  | under p group i, rule, h, q, hq => by
      obtain ⟨parent, hparent, hi⟩ := Option.bind_eq_some_iff.1 h
      exact places_subset_preorder hparent q (Rule.mem_places_iff.2 (Or.inr ⟨group, i, rule, hi, hq⟩))

end Place

mutual

theorem Rule.isSome_rule?_of_mem_places {rules : List Rule} : ∀ {rule : Rule} {p q : Place},
    p.rule? rules = some rule → q ∈ rule.places p → (q.rule? rules).isSome
  | ⟨body, nested, oneOf⟩, p, q, hp, hq => by
      rw [Rule.places, List.mem_cons, List.mem_append] at hq
      rcases hq with rfl | hq | hq
      · rw [hp]
        rfl
      · exact Rule.isSome_rule?_of_mem_placesFrom (Place.rule?_under hp .nested) hq
      · exact Rule.isSome_rule?_of_mem_placesFrom (Place.rule?_under hp .branch) hq

theorem Rule.isSome_rule?_of_mem_placesFrom {rules : List Rule} {site : Nat → Place} :
    ∀ {group : List Rule} {number : Nat} {q : Place},
      (∀ i, (site (number + i)).rule? rules = group[i]?) →
      q ∈ Rule.placesFrom site number group → (q.rule? rules).isSome
  | [], number, q, hsite, hq => by
      rw [Rule.placesFrom] at hq
      cases hq
  | rule :: rest, number, q, hsite, hq => by
      rw [Rule.placesFrom, List.mem_append] at hq
      rcases hq with hq | hq
      · exact Rule.isSome_rule?_of_mem_places (hsite 0) hq
      · exact Rule.isSome_rule?_of_mem_placesFrom (Place.rule?_tail hsite) hq

end

namespace Place

/-- The places that are listed are those with a rule. -/
theorem mem_preorder_iff {rules : List Rule} {q : Place} :
    q ∈ preorder rules ↔ (q.rule? rules).isSome := by
  constructor
  · intro h
    exact Rule.isSome_rule?_of_mem_placesFrom (rule?_top rules) h
  · intro h
    obtain ⟨rule, hr⟩ := Option.isSome_iff_exists.1 h
    exact places_subset_preorder hr q (Rule.self_mem_places q rule)

/-! ## Being below -/

theorem within_self : ∀ p : Place, Within p p
  | top _ => rfl
  | under _ _ _ => Or.inl rfl

theorem within_of_within_under {p q : Place} {group : RuleGroup} {i : Nat} (h : Within p q) :
    ∀ {x : Place}, Within (under q group i) x → Within p x
  | under _ _ _, hx => by
      rcases hx with hx | hx
      · cases hx
        exact Or.inr h
      · exact Or.inr (within_of_within_under h hx)

theorem depth_le_of_within {p : Place} : ∀ {q : Place}, Within p q → p.depth ≤ q.depth
  | top i, h => by
      have hp : p = top i := h
      exact Nat.le_of_eq (congrArg depth hp)
  | under q group i, h => by
      rcases h with h | h
      · exact Nat.le_of_eq (congrArg depth h)
      · exact Nat.le_succ_of_le (depth_le_of_within h)

/-- Of the places above a place, one is at each depth. -/
theorem eq_of_within {p p' : Place} : ∀ {q : Place},
    Within p q → Within p' q → p.depth = p'.depth → p = p'
  | top i, h, h', _ => by
      have hp : p = top i := h
      have hp' : p' = top i := h'
      rw [hp, hp']
  | under q group i, h, h', hd => by
      rcases h with h | h
      · rcases h' with h' | h'
        · rw [h, h']
        · have hle := depth_le_of_within h'
          rw [← hd, h] at hle
          exact absurd hle (Nat.not_succ_le_self _)
      · rcases h' with h' | h'
        · have hle := depth_le_of_within h
          rw [hd, h'] at hle
          exact absurd hle (Nat.not_succ_le_self _)
        · exact eq_of_within h h' hd

end Place

mutual

theorem Rule.within_of_mem_places : ∀ {rule : Rule} {p q : Place},
    q ∈ rule.places p → p.Within q
  | ⟨body, nested, oneOf⟩, p, q, hq => by
      rw [Rule.places, List.mem_cons, List.mem_append] at hq
      rcases hq with rfl | hq | hq
      · exact Place.within_self q
      · obtain ⟨i, hi⟩ := Rule.within_of_mem_placesFrom hq
        exact Place.within_of_within_under (Place.within_self p) hi
      · obtain ⟨i, hi⟩ := Rule.within_of_mem_placesFrom hq
        exact Place.within_of_within_under (Place.within_self p) hi

theorem Rule.within_of_mem_placesFrom {site : Nat → Place} :
    ∀ {rules : List Rule} {number : Nat} {q : Place},
      q ∈ Rule.placesFrom site number rules → ∃ i, (site (number + i)).Within q
  | [], number, q, hq => by
      rw [Rule.placesFrom] at hq
      cases hq
  | rule :: rest, number, q, hq => by
      rw [Rule.placesFrom, List.mem_append] at hq
      rcases hq with hq | hq
      · exact ⟨0, Rule.within_of_mem_places hq⟩
      · obtain ⟨i, hi⟩ := Rule.within_of_mem_placesFrom hq
        exact ⟨i + 1, by rwa [Nat.add_assoc, Nat.add_comm 1] at hi⟩

end

mutual

theorem Rule.nodup_places : ∀ (rule : Rule) (p : Place), (rule.places p).Nodup
  | ⟨body, nested, oneOf⟩, p => by
      have hin : ∀ (group : RuleGroup) (rules : List Rule) (q : Place),
          q ∈ Rule.placesFrom (p.under group) 0 rules → ∃ i, (p.under group i).Within q := by
        intro group rules q hq
        obtain ⟨i, hi⟩ := Rule.within_of_mem_placesFrom hq
        exact ⟨_, hi⟩
      have hself : ∀ (group : RuleGroup) (rules : List Rule),
          p ∉ Rule.placesFrom (p.under group) 0 rules := by
        intro group rules hq
        obtain ⟨i, hi⟩ := hin group rules p hq
        exact absurd (Place.depth_le_of_within hi) (Nat.not_succ_le_self _)
      have hsites : ∀ (group : RuleGroup) (i j : Nat),
          p.under group i = p.under group j → i = j := fun _ _ _ h => by cases h; rfl
      rw [Rule.places, List.nodup_cons, List.mem_append, List.nodup_append]
      refine ⟨fun h => h.elim (hself _ _) (hself _ _), ?_, ?_, ?_⟩
      · exact Rule.nodup_placesFrom (fun _ _ => rfl) (hsites _) nested 0
      · exact Rule.nodup_placesFrom (fun _ _ => rfl) (hsites _) oneOf 0
      · rintro a ha _ hb rfl
        obtain ⟨i, hi⟩ := hin _ _ _ ha
        obtain ⟨j, hj⟩ := hin _ _ _ hb
        have := Place.eq_of_within hi hj rfl
        cases this

theorem Rule.nodup_placesFrom {site : Nat → Place} (hdepth : ∀ i j, (site i).depth = (site j).depth)
    (hinj : ∀ i j, site i = site j → i = j) :
    ∀ (rules : List Rule) (number : Nat), (Rule.placesFrom site number rules).Nodup
  | [], number => by
      rw [Rule.placesFrom]
      exact List.nodup_nil
  | rule :: rest, number => by
      rw [Rule.placesFrom, List.nodup_append]
      refine ⟨Rule.nodup_places rule _, Rule.nodup_placesFrom hdepth hinj rest _, ?_⟩
      rintro a ha _ hb rfl
      obtain ⟨i, hi⟩ := Rule.within_of_mem_placesFrom hb
      have heq := hinj _ _ (Place.eq_of_within (Rule.within_of_mem_places ha) hi (hdepth _ _))
      omega

end

/-- No place is listed twice. -/
theorem Place.nodup_preorder (rules : List Rule) : (Place.preorder rules).Nodup :=
  Rule.nodup_placesFrom (fun _ _ => rfl) (fun _ _ h => by cases h; rfl) rules 0

end ImportChain
