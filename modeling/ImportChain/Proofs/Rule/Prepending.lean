/-
ImportChain.Proofs.Rule.Prepending — rules with others before them.

The rules of `B` are in `A ++ B` where they were in `B`, except that every
place has its number at the top raised by the length of `A`
(`Place.preorder_append`). What is said of a rule by its place carries over
(`Place.active_congr`), and a position made from a place has the one number
raised that the place has (`Place.text_raised`).

So `compile_append`, the main statement: neither part disturbs the other.
The first defect of `A ++ B` is that of `A`, else that of `B`; what the
rules give is what `A` and `B` give, one after the other; and an identity
leads to what `B` registers under it, else to what `A` does. All that
changes are the identities that `B` makes from positions.
-/
import ImportChain.Proofs.Rule.Defects
import ImportChain.Proofs.Rule.Identity

namespace ImportChain

open Outcome

/-! ## Places -/

namespace Place

/-- A place with its number at the top raised. -/
def raised (n : Nat) : Place → Place
  | top i => top (i + n)
  | under p group i => under (p.raised n) group i

/-- The number of a place at the top. -/
def root : Place → Nat
  | top i => i
  | under p _ _ => p.root

/-- What stands in a position after the number at the top. -/
def tail : Place → String
  | top _ => ""
  | under p group i => numbered (p.tail ++ group.text) i

theorem root_raised (n : Nat) : ∀ p : Place, (p.raised n).root = p.root + n
  | top _ => rfl
  | under p _ _ => root_raised n p

theorem tail_raised (n : Nat) : ∀ p : Place, (p.raised n).tail = p.tail
  | top _ => rfl
  | under p group i => by simp only [raised, tail, tail_raised n p]

section Append

variable {A B : List Rule}

theorem rule?_raised : ∀ p : Place, (p.raised A.length).rule? (A ++ B) = p.rule? B
  | top i => by
      show (A ++ B)[i + A.length]? = B[i]?
      rw [List.getElem?_append_right (by omega), Nat.add_sub_cancel]
  | under p group i => by simp only [raised, rule?, rule?_raised p]

theorem rule?_append_of_root_lt : ∀ {p : Place}, p.root < A.length → p.rule? (A ++ B) = p.rule? A
  | top _, h => List.getElem?_append_left h
  | under p group i, h => by
      have hp : p.rule? (A ++ B) = p.rule? A := rule?_append_of_root_lt h
      simp only [rule?, hp]

theorem root_lt_of_isSome : ∀ {p : Place}, (p.rule? A).isSome → p.root < A.length
  | top i, h => by
      rw [rule?] at h
      simpa [root] using h
  | under p group i, h => by
      rw [rule?] at h
      cases hp : p.rule? A with
      | none => simp [hp] at h
      | some parent => exact root_lt_of_isSome (p := p) (by simp [hp])

end Append

end Place

/-! ## Listing -/

mutual

theorem Rule.places_raised (n : Nat) : ∀ (rule : Rule) (p : Place),
    rule.places (p.raised n) = (rule.places p).map (Place.raised n)
  | ⟨body, rules, oneOf⟩, p => by
      have hnested : Rule.placesFrom ((p.raised n).under .nested) 0 rules
          = (Rule.placesFrom (p.under .nested) 0 rules).map (Place.raised n) :=
        Rule.placesFrom_raised n rules fun _ => rfl
      have hbranch : Rule.placesFrom ((p.raised n).under .branch) 0 oneOf
          = (Rule.placesFrom (p.under .branch) 0 oneOf).map (Place.raised n) :=
        Rule.placesFrom_raised n oneOf fun _ => rfl
      rw [Rule.places, Rule.places, List.map_cons, List.map_append, hnested, hbranch]

theorem Rule.placesFrom_raised (n : Nat) {site site' : Nat → Place} {number number' : Nat} :
    ∀ rules : List Rule, (∀ i, site' (number' + i) = (site (number + i)).raised n) →
      Rule.placesFrom site' number' rules
        = (Rule.placesFrom site number rules).map (Place.raised n)
  | [], _ => by
      rw [Rule.placesFrom, Rule.placesFrom]
      rfl
  | rule :: rest, h => by
      have hfirst : site' number' = (site number).raised n := h 0
      have hrest : ∀ i, site' (number' + 1 + i) = (site (number + 1 + i)).raised n := by
        intro i
        simpa only [Nat.add_assoc, Nat.add_comm 1] using h (i + 1)
      rw [Rule.placesFrom, Rule.placesFrom, List.map_append, hfirst, Rule.places_raised n rule,
        Rule.placesFrom_raised n rest hrest]

end

theorem Rule.placesFrom_append (site : Nat → Place) : ∀ (A B : List Rule) (number : Nat),
    placesFrom site number (A ++ B)
      = placesFrom site number A ++ placesFrom site (number + A.length) B
  | [], B, number => by
      rw [placesFrom]
      rfl
  | rule :: A, B, number => by
      rw [List.cons_append, placesFrom, placesFrom, placesFrom_append site A B, List.append_assoc,
        List.length_cons, Nat.add_assoc, Nat.add_comm 1]

/-- The places of two lists of rules are those of the first, and those of the
second with their numbers at the top raised. -/
theorem Place.preorder_append (A B : List Rule) :
    preorder (A ++ B) = preorder A ++ (preorder B).map (raised A.length) := by
  unfold preorder
  rw [Rule.placesFrom_append]
  congr 1
  apply Rule.placesFrom_raised
  intro i
  show top (0 + A.length + i) = top (0 + i + A.length)
  congr 1
  omega

/-! ## Activity -/

namespace Place

variable {facts : Facts} {rules rules' : List Rule}

/-- Whether a rule takes part is up to the rules at places with its number at
the top, under whatever number these stand. -/
theorem active_congr (move : Place → Place) (htop : ∀ i, ∃ j, move (top i) = top j)
    (hunder : ∀ p group i, move (under p group i) = under (move p) group i) :
    ∀ {p : Place}, (∀ q : Place, q.root = p.root → (move q).rule? rules' = q.rule? rules) →
      ((move p).Active facts rules' ↔ p.Active facts rules)
  | top i, h => by
      obtain ⟨j, hj⟩ := htop i
      have hrule := h (top i) rfl
      rw [hj] at hrule ⊢
      simp only [Active, PassesAt, hrule]
  | under p group i, h => by
      have hp := active_congr move htop hunder (p := p) h
      have hpasses : ∀ j, (under (move p) group j).PassesAt facts rules'
          ↔ (under p group j).PassesAt facts rules := by
        intro j
        rw [← hunder]
        simp only [PassesAt, h (under p group j) rfl]
      rw [hunder]
      cases group <;> simp only [Active, hp, hpasses]

theorem active_raised {A B : List Rule} (p : Place) :
    (p.raised A.length).Active facts (A ++ B) ↔ p.Active facts B :=
  active_congr _ (fun _ => ⟨_, rfl⟩) (fun _ _ _ => rfl) fun q _ => rule?_raised q

theorem active_append_of_root_lt {A B : List Rule} {p : Place} (h : p.root < A.length) :
    p.Active facts (A ++ B) ↔ p.Active facts A :=
  active_congr id (fun _ => ⟨_, rfl⟩) (fun _ _ _ => rfl) fun _ hq =>
    rule?_append_of_root_lt (hq ▸ h)

end Place

/-! ## Positions -/

/-- A position with its number at the top raised; any other text stays. -/
def raisePosition (n : Nat) (position : String) : String :=
  match Text.dropStart? "ref--".toList position.toList with
  | some rest =>
    numbered "ref-" (Nat.ofDigitChars 10 (rest.takeWhile Char.isDigit) 0 + n)
      ++ String.ofList (rest.dropWhile Char.isDigit)
  | none => position

theorem numbered_append (p q : String) (i : Nat) : p ++ numbered q i = numbered (p ++ q) i := by
  simp only [numbered, String.append_assoc]

/-- Raising a number changes nothing after it. -/
theorem raisePosition_numbered_append (n i : Nat) {tail : String}
    (h : ∀ c ∈ tail.toList.head?, c = '-') :
    raisePosition n (numbered "ref-" i ++ tail) = numbered "ref-" (i + n) ++ tail := by
  have hdigits : ∀ c ∈ Nat.toDigits 10 i, c.isDigit = true := fun c hc =>
    Nat.isDigit_of_mem_toDigits (by decide) (by decide) hc
  have hstop : ∀ c ∈ tail.toList.head?, c.isDigit = false := by
    intro c hc
    rw [h c hc]
    decide
  have hrest : Text.dropStart? "ref--".toList (numbered "ref-" i ++ tail).toList
      = some (Nat.toDigits 10 i ++ tail.toList) := by
    rw [Text.dropStart?_eq_some_iff, String.toList_append, toList_numbered]
    simp
  have htake : (Nat.toDigits 10 i ++ tail.toList).takeWhile Char.isDigit = Nat.toDigits 10 i := by
    rw [List.takeWhile_append_of_pos hdigits]
    cases ht : tail.toList with
    | nil => simp
    | cons c rest => simp [hstop c (by simp [ht])]
  have hdrop : (Nat.toDigits 10 i ++ tail.toList).dropWhile Char.isDigit = tail.toList := by
    rw [List.dropWhile_append_of_pos hdigits]
    cases ht : tail.toList with
    | nil => simp
    | cons c rest => simp [hstop c (by simp [ht])]
  unfold raisePosition
  rw [hrest]
  simp only [htake, hdrop, Nat.ofDigitChars_ten_toDigits, String.ofList_toList]

example : raisePosition 4 "ref--18-rules-2" = "ref--22-rules-2" := by decide +kernel

namespace Place

theorem text_eq_root_append_tail : ∀ p : Place, p.text = numbered "ref-" p.root ++ p.tail
  | top i => String.append_empty.symm
  | under p group i => by
      rw [text, text_eq_root_append_tail p, tail, numbered_append, String.append_assoc]
      rfl

theorem head?_tail : ∀ p : Place, ∀ c ∈ p.tail.toList.head?, c = '-'
  | top _, c, h => by cases h
  | under p group i, c, h => by
      have ih := head?_tail p
      rw [tail, toList_numbered, String.toList_append] at h
      cases ht : p.tail.toList with
      | nil => cases group <;> simpa [ht, RuleGroup.text, eq_comm] using h
      | cons d rest =>
        rw [ht] at h ih
        exact (Option.some.inj h : d = c) ▸ ih d rfl

/-- The position of a place has the number raised that the place has. -/
theorem text_raised (n : Nat) (p : Place) : (p.raised n).text = raisePosition n p.text := by
  rw [text_eq_root_append_tail, text_eq_root_append_tail p, root_raised, tail_raised,
    raisePosition_numbered_append n p.root p.head?_tail]

/-- The same goes for the positions numbered below it. -/
theorem numbered_text_raised (n : Nat) (p : Place) (i : Nat) :
    numbered (p.raised n).text i = raisePosition n (numbered p.text i) := by
  have htail : ∀ c ∈ (numbered p.tail i).toList.head?, c = '-' := by
    intro c hc
    rw [toList_numbered] at hc
    cases ht : p.tail.toList with
    | nil => simpa [ht, eq_comm] using hc
    | cons d rest => exact p.head?_tail c (by simpa [ht] using hc)
  rw [text_eq_root_append_tail, text_eq_root_append_tail p, root_raised, tail_raised,
    ← numbered_append, ← numbered_append, raisePosition_numbered_append n p.root htail]

end Place

/-! ## Entries -/

/-- What every place of a list of rules says, the places of `A ++ B` taken
apart into those of `A` and those of `B`. -/
theorem Place.flatMap_preorder_append {α : Type} {A B : List Rule} {f : List Rule → Place → List α}
    (hf : ∀ p : Place, p.rule? (A ++ B) = p.rule? A → f (A ++ B) p = f A p) :
    (preorder (A ++ B)).flatMap (f (A ++ B))
      = (preorder A).flatMap (f A)
        ++ (preorder B).flatMap fun p => f (A ++ B) (p.raised A.length) := by
  rw [preorder_append, List.flatMap_append, List.flatMap_map]
  congr 1
  apply List.flatMap_congr
  intro p hp
  exact hf p (rule?_append_of_root_lt (root_lt_of_isSome (mem_preorder_iff.1 hp)))

/-- The entries of a rule stand at the raised positions if the rule does. -/
theorem RuleBody.items_raised (n : Nat) (p : Place) (rule : RuleBody) :
    rule.items (p.raised n).text = (rule.items p.text).map (Prod.map (raisePosition n) id) := by
  unfold items
  cases rule.loader with
  | some loader => simp [Place.text_raised]
  | none =>
    cases rule.uses with
    | none => rfl
    | some uses =>
      cases uses with
      | one item => simp [Place.text_raised]
      | many items => simp [Place.numbered_text_raised]

theorem Place.entries_raised {A B : List Rule} (p : Place) :
    (p.raised A.length).entries (A ++ B)
      = (p.entries B).map (Prod.map (raisePosition A.length) id) := by
  unfold entries
  rw [rule?_raised]
  cases p.rule? B with
  | none => rfl
  | some rule => exact rule.body.items_raised A.length p

/-- What rules register behind `n` others: where an entry chooses no
identity, its position has the number at the top raised. -/
def Rule.registrationsAfter (n : Nat) (rules : List Rule) : List (String × List (String × Json)) :=
  (entries rules).filterMap fun (position, item) => item.registers (raisePosition n position)

theorem Rule.registrations_append (A B : List Rule) :
    registrations (A ++ B) = registrations A ++ registrationsAfter A.length B := by
  have hentries : entries (A ++ B)
      = entries A ++ (entries B).map (Prod.map (raisePosition A.length) id) := by
    unfold entries
    rw [Place.flatMap_preorder_append fun p hp => by unfold Place.entries; rw [hp],
      List.map_flatMap]
    simp only [Place.entries_raised]
  unfold registrations registrationsAfter
  rw [hentries, List.filterMap_append, List.filterMap_map]
  rfl

/-! ## Effects -/

/-- What a rule at a position contributes by itself, each with whether its
identity is made from a position. -/
def RuleBody.markedEffects (position : String) (rule : RuleBody) : List (RuleEffect × Bool) :=
  rule.settings.map (fun (key, value) => (.setting key value, false))
    ++ (rule.items position).flatMap fun (position, item) =>
        (item.loaders position).map fun loader =>
          (loader.effect (rule.enforce.getD .normal), item.isGenerated)

/-- An effect behind `n` other rules. Only the identity of a loader changes,
and only if it is made from a position. -/
def RuleEffect.raised (n : Nat) : RuleEffect × Bool → RuleEffect
  | (.use loader enforce, true) =>
    .use { loader with ident := loader.ident.map (raisePosition n) } enforce
  | (effect, _) => effect

@[simp] theorem RuleEffect.raised_false (n : Nat) (effect : RuleEffect) :
    raised n (effect, false) = effect := by
  cases effect <;> rfl

theorem RuleBody.map_fst_markedEffects (position : String) (rule : RuleBody) :
    (rule.markedEffects position).map Prod.fst = rule.ownEffects position := by
  unfold markedEffects ownEffects
  simp [List.map_flatMap, Function.comp_def]

namespace UseItem

/-- The position of an entry counts only for structured options. -/
theorem loaders_of_fields?_eq_none {item : UseItem} (h : item.fields? = none)
    (position position' : String) : item.loaders position = item.loaders position' := by
  cases item with
  | request text => rfl
  | loader name options ident =>
    cases options with
    | none => rfl
    | some json =>
      cases json with
      | str text => by_cases ht : text = "" <;> simp [loaders, LoaderOptions.ofJson, ht,
          LoaderOptions.identity]
      | obj fields => simp [fields?] at h
      | null => rfl
      | bool b => rfl
      | int n => rfl
      | float bits => rfl
      | arr items => rfl

/-- The loaders of an entry at a raised position are those at the position
itself, with the identity raised if it is made from the position. -/
theorem effects_raised (n : Nat) (position : String) (enforce : Enforce) (item : UseItem) :
    (item.loaders (raisePosition n position)).map (NodeLoader.effect enforce)
      = (item.loaders position).map fun loader =>
          RuleEffect.raised n (loader.effect enforce, item.isGenerated) := by
  cases hf : item.fields? with
  | none =>
    have hmark : item.isGenerated = false := by simp [isGenerated, hf]
    rw [loaders_of_fields?_eq_none hf _ position]
    simp [hmark]
  | some fields =>
    obtain ⟨name, ident, rfl⟩ := eq_loader_of_fields?_eq_some hf
    rw [loaders_loader_of_obj, loaders_loader_of_obj]
    cases hc : ident.or (ownIdent fields) <;>
      simp [isGenerated, fields?, chosen?, hc, NodeLoader.effect, RuleEffect.raised]

end UseItem

theorem RuleBody.ownEffects_raised (n : Nat) (p : Place) (rule : RuleBody) :
    rule.ownEffects (p.raised n).text
      = (rule.markedEffects p.text).map (RuleEffect.raised n) := by
  unfold ownEffects markedEffects
  rw [items_raised, List.flatMap_map, List.map_append, List.map_flatMap]
  simp [UseItem.effects_raised, Function.comp_def]

/-- What the rule at a place contributes by itself, marked. -/
def Place.markedEffects (rules : List Rule) (p : Place) : List (RuleEffect × Bool) :=
  match p.rule? rules with
  | some rule => rule.body.markedEffects p.text
  | none => []

theorem Place.map_fst_markedEffects (rules : List Rule) (p : Place) :
    (p.markedEffects rules).map Prod.fst = p.ownEffects rules := by
  unfold markedEffects ownEffects
  cases p.rule? rules with
  | none => rfl
  | some rule => exact rule.body.map_fst_markedEffects p.text

theorem Place.ownEffects_raised {A B : List Rule} (p : Place) :
    (p.raised A.length).ownEffects (A ++ B)
      = (p.markedEffects B).map (RuleEffect.raised A.length) := by
  unfold markedEffects ownEffects
  rw [rule?_raised]
  cases p.rule? B with
  | none => rfl
  | some rule => exact rule.body.ownEffects_raised A.length p

open Classical in
/-- What the active rules of a list contribute, marked. -/
noncomputable def Rule.marked (facts : Facts) (rules : List Rule) : List (RuleEffect × Bool) :=
  ((Place.preorder rules).filter (fun p => p.Active facts rules)).flatMap
    (Place.markedEffects rules)

theorem Rule.map_fst_marked (facts : Facts) (rules : List Rule) :
    (marked facts rules).map Prod.fst = Place.contributed facts rules (Place.preorder rules) := by
  unfold marked Place.contributed
  simp only [List.map_flatMap, Place.map_fst_markedEffects]

/-- What two lists of rules contribute is what the first does, and then what
the second does behind it. -/
theorem Place.contributed_append_rules (facts : Facts) (A B : List Rule) :
    contributed facts (A ++ B) (preorder (A ++ B))
      = contributed facts A (preorder A)
        ++ (Rule.marked facts B).map (RuleEffect.raised A.length) := by
  have hfirst : contributed facts (A ++ B) (preorder A) = contributed facts A (preorder A) := by
    have hroot : ∀ p ∈ preorder A, p.root < A.length := fun p hp =>
      root_lt_of_isSome (mem_preorder_iff.1 hp)
    unfold contributed
    rw [List.filter_congr fun p hp => by rw [active_append_of_root_lt (hroot p hp)]]
    apply List.flatMap_congr
    intro p hp
    unfold ownEffects
    rw [rule?_append_of_root_lt (hroot p (List.mem_filter.1 hp).1)]
  have hsecond : contributed facts (A ++ B) ((preorder B).map (raised A.length))
      = (Rule.marked facts B).map (RuleEffect.raised A.length) := by
    unfold contributed Rule.marked
    rw [List.filter_map, List.flatMap_map, List.map_flatMap,
      List.filter_congr fun p _ => by rw [Function.comp_apply, active_raised p]]
    simp only [ownEffects_raised]
  rw [preorder_append, contributed_append, hfirst, hsecond]

/-! ## Defects -/

/-- An error of a rule behind `n` others: the position that it names has its
number at the top raised. -/
def RuleError.raised (n : Nat) : RuleError → RuleError
  | .condition pattern message => .condition pattern message
  | .rule position message => .rule (raisePosition n position) message

theorem Condition.map_raised_defects (n : Nat) (c : Condition) :
    c.defects.map (RuleError.raised n) = c.defects := by
  have hpattern : ∀ pattern, (patternDefect? pattern).map (RuleError.raised n)
      = patternDefect? pattern := by
    intro pattern
    unfold patternDefect?
    split <;> rfl
  unfold defects
  simp only [List.map_filterMap, hpattern]

theorem RuleBody.defects_raised (n : Nat) (p : Place) (rule : RuleBody) :
    rule.defects (p.raised n).text = (rule.defects p.text).map (RuleError.raised n) := by
  have hkeys : rule.keyDefects (p.raised n).text
      = (rule.keyDefects p.text).map (RuleError.raised n) := by
    rw [Place.text_raised]
    unfold keyDefects
    split
    · rfl
    · split <;> rfl
  unfold defects
  simp only [List.map_append, List.map_flatMap, Condition.map_raised_defects, hkeys]

theorem Place.defects_raised {A B : List Rule} (p : Place) :
    (p.raised A.length).defects (A ++ B) = (p.defects B).map (RuleError.raised A.length) := by
  unfold defects
  rw [rule?_raised]
  cases p.rule? B with
  | none => rfl
  | some rule => exact rule.body.defects_raised A.length p

theorem Rule.defects_append (A B : List Rule) :
    Rule.defects (A ++ B)
      = Rule.defects A ++ (Rule.defects B).map (RuleError.raised A.length) := by
  unfold defects
  rw [Place.flatMap_preorder_append fun p hp => by unfold Place.defects; rw [hp],
    List.map_flatMap]
  simp only [Place.defects_raised]

/-! ## Sets -/

/-- The options registered last under an identity. -/
def lastUnder (ident : String) (registrations : List (String × List (String × Json))) :
    Option (List (String × Json)) :=
  (registrations.reverse.find? (·.1 = ident)).map (·.2)

theorem lastUnder_append (ident : String) (xs ys : List (String × List (String × Json))) :
    lastUnder ident (xs ++ ys) = (lastUnder ident ys).or (lastUnder ident xs) := by
  unfold lastUnder
  rw [List.reverse_append, List.find?_append]
  cases ys.reverse.find? (·.1 = ident) <;> rfl

namespace RuleSet

variable {A B : List Rule} {set setA setB : RuleSet}

theorem options?_eq_lastUnder {rules : List Rule} (h : compile rules = .ok set) (ident : String) :
    set.options? ident = lastUnder ident (Rule.registrations rules) := by
  unfold options? lastUnder
  rw [references_eq_registrations h]

theorem failure?_compile_append (A B : List Rule) :
    failure? (compile (A ++ B))
      = (failure? (compile A)).or ((failure? (compile B)).map (RuleError.raised A.length)) := by
  rw [failure?_compile, failure?_compile, failure?_compile, Rule.defects_append,
    List.head?_append, List.head?_map]

theorem options?_append (h : compile (A ++ B) = .ok set) (hA : compile A = .ok setA)
    (ident : String) :
    set.options? ident
      = (lastUnder ident (Rule.registrationsAfter A.length B)).or (setA.options? ident) := by
  rw [options?_eq_lastUnder h, options?_eq_lastUnder hA, Rule.registrations_append,
    lastUnder_append]

/-- Rules with others before them stay as they are, but for the numbers at
the top of their positions. Two lists of rules are made ready if each of
them is, and else fail as the first of them that does. They give what the
first gives and then what the second does, where a loader is given another
identity if and only if its identity is made from a position. An identity
leads to what the second registers last under it, and else where the first
leads it to. -/
theorem compile_append (A B : List Rule) :
    ((∃ set, compile (A ++ B) = .ok set)
      ↔ (∃ setA, compile A = .ok setA) ∧ ∃ setB, compile B = .ok setB)
    ∧ failure? (compile (A ++ B))
      = (failure? (compile A)).or ((failure? (compile B)).map (RuleError.raised A.length))
    ∧ ∀ set setA setB, compile (A ++ B) = .ok set → compile A = .ok setA →
        compile B = .ok setB →
          (∀ facts, setB.exec facts = (Rule.marked facts B).map Prod.fst
            ∧ set.exec facts
              = setA.exec facts ++ (Rule.marked facts B).map (RuleEffect.raised A.length))
          ∧ ∀ ident, set.findOptions ident
              = match lastUnder ident (Rule.registrationsAfter A.length B) with
                | some fields => .ok fields
                | none => setA.findOptions ident := by
  have hfailure := failure?_compile_append A B
  refine ⟨?_, hfailure, ?_⟩
  · simp only [← failure?_eq_none_iff, hfailure, Option.or_eq_none_iff, Option.map_eq_none_iff]
  · intro set setA setB h hA hB
    constructor
    · intro facts
      rw [exec_eq_contributed h, exec_eq_contributed hA, exec_eq_contributed hB,
        Rule.map_fst_marked]
      exact ⟨rfl, Place.contributed_append_rules facts A B⟩
    · intro ident
      unfold findOptions
      rw [options?_append h hA]
      cases lastUnder ident (Rule.registrationsAfter A.length B) <;> rfl

/-- A rule that chooses the identity that the first rule behind it is given. -/
def skinRules : List Rule :=
  [⟨{ uses := some (.one (.loader "a-loader" (some (.obj [])) (some "ref--1"))) }, [], []⟩]

/-- A rule with a nested one, which refers to the identity of the first rule
of all. -/
def treeRules : List Rule :=
  [⟨{ loader := some "b-loader", options := some (.obj [("depth", .int 1)]) },
    [⟨{ uses := some (.many [.request "c-loader??ref--0",
        .loader "d-loader" (some (.obj [])) none]) }, [], []⟩], []⟩]

/-- Identities that are made follow their rules, those that are chosen or
referred to stay; of two options under one identity the later ones count. -/
theorem compile_append_of_treeRules :
    ∃ set setA, compile (skinRules ++ treeRules) = .ok set ∧ compile skinRules = .ok setA
      ∧ (∃ setB, compile treeRules = .ok setB)
      ∧ set.exec {} = setA.exec {} ++ (Rule.marked {} treeRules).map (RuleEffect.raised 1)
      ∧ set.exec {} = [.use ⟨"a-loader", .structured [], some "ref--1"⟩ .normal,
          .use ⟨"b-loader", .structured [("depth", .int 1)], some "ref--1"⟩ .normal,
          .use ⟨"c-loader", .absent, some "ref--0"⟩ .normal,
          .use ⟨"d-loader", .structured [], some "ref--1-rules-0-1"⟩ .normal]
      ∧ set.findOptions "ref--1" = .ok [("depth", .int 1)]
      ∧ set.findOptions "ref--0" = .error (.optionLookup "ref--0") := by
  have hgives : (compile (skinRules ++ treeRules)).toOption.map (fun set => set.exec {})
      = some [.use ⟨"a-loader", .structured [], some "ref--1"⟩ .normal,
          .use ⟨"b-loader", .structured [("depth", .int 1)], some "ref--1"⟩ .normal,
          .use ⟨"c-loader", .absent, some "ref--0"⟩ .normal,
          .use ⟨"d-loader", .structured [], some "ref--1-rules-0-1"⟩ .normal] := by
    decide +kernel
  obtain ⟨hready, -, hboth⟩ := compile_append skinRules treeRules
  cases h : compile (skinRules ++ treeRules) with
  | error e =>
    rw [h] at hgives
    cases hgives
  | ok set =>
    rw [h] at hgives
    obtain ⟨⟨setA, hA⟩, setB, hB⟩ := hready.1 ⟨set, h⟩
    obtain ⟨heffects, hoptions⟩ := hboth set setA setB h hA hB
    refine ⟨set, setA, rfl, hA, ⟨setB, hB⟩, (heffects {}).2, Option.some.inj hgives, ?_, ?_⟩
    · rw [hoptions]
      have hlast : lastUnder "ref--1" (Rule.registrationsAfter 1 treeRules)
          = some [("depth", .int 1)] := by decide +kernel
      rw [show skinRules.length = 1 from rfl, hlast]
    · rw [hoptions]
      have hlast : lastUnder "ref--0" (Rule.registrationsAfter 1 treeRules) = none := by
        decide +kernel
      have hfirst : lastUnder "ref--0" (Rule.registrations skinRules) = none := by
        decide +kernel
      rw [show skinRules.length = 1 from rfl, hlast]
      simp only
      rw [findOptions_eq_error_iff, options?_eq_lastUnder hA, hfirst]

end RuleSet

end ImportChain
