/-
ImportChain.Proofs.Rule.Identity — which options an identity leads to.

Structured options are registered under the identity that their entry
chooses, or under the position of the entry. `Rule.registrations` lists
what the rules as written register, a rule before the rules below it, and
`RuleNode.referencesOfAll_eq_registrations` says that making rules ready
keeps the list.

A position is a path of numbers and groups, printed with `-` between them.
It can be read back from its end: the last number is what follows the last
`-`, and what stands before that names a group, so that it does not end in
a digit, as every position does (`Place.stem_ne_text`). Hence no two
entries have one position (`Rule.nodup_positions`).

`findOptions_of_compile` is the main statement: an identity leads to what
was registered last under it, and where the chosen identities are told
apart it leads every loader to its own options.
-/
import ImportChain.Proofs.Rule.Activity
import ImportChain.Proofs.Text.Pieces
import Mathlib.Data.List.Nodup

namespace ImportChain

open Outcome

/-! ## Numbers at the end of a text -/

theorem toList_numbered (position : String) (number : Nat) :
    (numbered position number).toList = position.toList ++ '-' :: Nat.toDigits 10 number := by
  simp [numbered, String.toList_append]

theorem dash_notMem_toDigits (number : Nat) : '-' ∉ Nat.toDigits 10 number := by
  intro h
  have := Nat.isDigit_of_mem_toDigits (by decide) (by decide) h
  revert this
  decide

/-- A numbered position is read back as its position and its number. -/
theorem numbered_inj {p q : String} {i j : Nat} : numbered p i = numbered q j ↔ p = q ∧ i = j := by
  rw [← String.toList_inj, toList_numbered, toList_numbered,
    Text.append_cons_inj (dash_notMem_toDigits i) (dash_notMem_toDigits j), String.toList_inj]
  refine and_congr_right fun _ => ⟨fun h => ?_, fun h => h ▸ rfl⟩
  calc i = Nat.ofDigitChars 10 (Nat.toDigits 10 i) 0 := Nat.ofDigitChars_ten_toDigits.symm
    _ = Nat.ofDigitChars 10 (Nat.toDigits 10 j) 0 := by rw [h]
    _ = j := Nat.ofDigitChars_ten_toDigits

/-- Whether the last character of a text is a digit. -/
def EndsInDigit (text : String) : Prop := ∃ c ∈ text.toList.getLast?, c.isDigit = true

theorem endsInDigit_numbered (position : String) (number : Nat) :
    EndsInDigit (numbered position number) := by
  have hne : Nat.toDigits 10 number ≠ [] := Nat.toDigits_ne_nil
  refine ⟨(Nat.toDigits 10 number).getLast hne, ?_,
    Nat.isDigit_of_mem_toDigits (by decide) (by decide) (List.getLast_mem hne)⟩
  rw [toList_numbered, List.getLast?_append, List.getLast?_cons, List.getLast?_eq_some_getLast hne]
  rfl

/-! ## Positions of rules -/

theorem RuleGroup.not_endsInDigit_append_text (position : String) (group : RuleGroup) :
    ¬ EndsInDigit (position ++ group.text) := by
  rintro ⟨c, hc, hdigit⟩
  cases group with
  | nested =>
    have : c = 's' := by simpa [text, String.toList_append, List.getLast?_append, eq_comm] using hc
    subst this
    exact absurd hdigit (by decide)
  | branch =>
    have : c = 'f' := by simpa [text, String.toList_append, List.getLast?_append, eq_comm] using hc
    subst this
    exact absurd hdigit (by decide)

/-- The text of a group says which group it is. -/
theorem RuleGroup.append_text_inj {p q : String} {group group' : RuleGroup} :
    p ++ group.text = q ++ group'.text ↔ p = q ∧ group = group' := by
  constructor
  · intro h
    have hchars : p.toList ++ group.text.toList = q.toList ++ group'.text.toList := by
      rw [← String.toList_append, h, String.toList_append]
    obtain ⟨hpq, hgroup⟩ := List.append_inj' hchars (by cases group <;> cases group' <;> simp [text])
    exact ⟨String.toList_inj.1 hpq, by cases group <;> cases group' <;> simp [text] at hgroup ⊢⟩
  · rintro ⟨rfl, rfl⟩
    rfl

namespace Place

/-- What the position of a place numbers: the top, or a group of the rule
above. -/
def stem : Place → String
  | top _ => "ref-"
  | under p group _ => p.text ++ group.text

/-- The number of a place among those beside it. -/
def number : Place → Nat
  | top i => i
  | under _ _ i => i

theorem text_eq_numbered (p : Place) : p.text = numbered p.stem p.number := by
  cases p <;> rfl

theorem not_endsInDigit_stem : ∀ p : Place, ¬ EndsInDigit p.stem
  | top _ => by
      rintro ⟨c, hc, hdigit⟩
      have : c = '-' := by simpa [stem, eq_comm] using hc
      subst this
      exact absurd hdigit (by decide)
  | under p group _ => group.not_endsInDigit_append_text p.text

theorem stem_ne_text (p q : Place) : p.stem ≠ q.text := by
  intro h
  refine not_endsInDigit_stem p ?_
  rw [h, text_eq_numbered]
  exact endsInDigit_numbered _ _

/-- No two places have one position. -/
theorem text_inj : ∀ {p q : Place}, p.text = q.text → p = q
  | top i, top j, h => by
      obtain ⟨-, rfl⟩ := numbered_inj.1 h
      rfl
  | top i, under q group j, h => by
      obtain ⟨hstem, -⟩ := numbered_inj.1 h
      have hlast := congrArg (fun text => text.toList.getLast?) hstem
      cases group <;>
        simp [RuleGroup.text, String.toList_append, List.getLast?_append] at hlast
  | under p group i, top j, h => by
      obtain ⟨hstem, -⟩ := numbered_inj.1 h
      have hlast := congrArg (fun text => text.toList.getLast?) hstem
      cases group <;>
        simp [RuleGroup.text, String.toList_append, List.getLast?_append] at hlast
  | under p group i, under q group' j, h => by
      obtain ⟨hstem, rfl⟩ := numbered_inj.1 h
      obtain ⟨htext, rfl⟩ := RuleGroup.append_text_inj.1 hstem
      rw [text_inj htext]

end Place

/-! ## Entries -/

namespace UseItem

/-- The fields of structured options. -/
def fields? : UseItem → Option (List (String × Json))
  | .loader _ (some (.obj fields)) _ => some fields
  | _ => none

/-- The identity that an entry chooses for structured options: its own, else
the one inside them. -/
def chosen? : UseItem → Option String
  | .loader _ (some (.obj fields)) ident => ident.or (ownIdent fields)
  | _ => none

/-- What an entry at a position registers: structured options, under the
identity that it chooses or else under its position. -/
def registers (position : String) (item : UseItem) : Option (String × List (String × Json)) :=
  item.fields?.map fun fields => (item.chosen?.getD position, fields)

/-- Whether the identity of an entry is made from its position. -/
def isGenerated (item : UseItem) : Bool := item.fields?.isSome && item.chosen?.isNone

end UseItem

/-- The entries of what the rule at a place uses, each with its position. -/
def Place.entries (rules : List Rule) (p : Place) : List (String × UseItem) :=
  match p.rule? rules with
  | some rule => rule.body.items p.text
  | none => []

namespace Rule

/-- All entries of a rule list, those of a rule before those of the rules
below it. -/
def entries (rules : List Rule) : List (String × UseItem) :=
  (Place.preorder rules).flatMap (Place.entries rules)

/-- What the entries of a rule list register, in order. -/
def registrations (rules : List Rule) : List (String × List (String × Json)) :=
  (entries rules).filterMap fun (position, item) => item.registers position

/-- The identities that entries choose. -/
def chosen (rules : List Rule) : List String :=
  (entries rules).filterMap fun (_, item) => item.chosen?

/-- The identities that are made from positions. -/
def generated (rules : List Rule) : List String :=
  ((entries rules).filter fun entry => entry.2.isGenerated).map (·.1)

end Rule

/-! ## Positions of entries -/

/-- The entries of a rule stand at its position, or at numbered ones below
it. -/
theorem RuleBody.positions_eq (rule : RuleBody) (position : String) :
    (rule.items position).map (·.1) = []
      ∨ (rule.items position).map (·.1) = [position]
      ∨ ∃ count, (rule.items position).map (·.1) = (List.range count).map (numbered position) := by
  unfold items
  cases rule.loader with
  | some loader => exact Or.inr (Or.inl rfl)
  | none =>
    cases rule.uses with
    | none => exact Or.inl rfl
    | some uses =>
      cases uses with
      | one item => exact Or.inr (Or.inl rfl)
      | many items =>
        refine Or.inr (Or.inr ⟨items.length, ?_⟩)
        simp only [List.map_map]
        show items.zipIdx.map (numbered position ∘ Prod.snd) = _
        rw [← List.map_map, List.zipIdx_map_snd, List.range_eq_range']

theorem RuleBody.nodup_positions (rule : RuleBody) (position : String) :
    ((rule.items position).map (·.1)).Nodup := by
  rcases rule.positions_eq position with h | h | ⟨count, h⟩
  · rw [h]
    exact List.nodup_nil
  · rw [h]
    exact List.nodup_singleton position
  · rw [h]
    exact List.nodup_range.map fun i j hij => (numbered_inj.1 hij).2

namespace Place

/-- The position of an entry is that of its rule, or numbered below it. -/
theorem eq_or_eq_numbered_of_mem_entries {rules : List Rule} {p : Place}
    {entry : String × UseItem} (h : entry ∈ p.entries rules) :
    entry.1 = p.text ∨ ∃ i, entry.1 = numbered p.text i := by
  unfold entries at h
  split at h
  · next rule _ =>
    have hposition := List.mem_map_of_mem (f := Prod.fst) h
    rcases rule.body.positions_eq p.text with hp | hp | ⟨count, hp⟩
    · rw [hp] at hposition
      cases hposition
    · rw [hp] at hposition
      exact Or.inl (List.mem_singleton.1 hposition)
    · rw [hp] at hposition
      obtain ⟨i, -, hi⟩ := List.mem_map.1 hposition
      exact Or.inr ⟨i, hi.symm⟩
  · cases h

/-- A position says where its entry stands. -/
theorem eq_of_mem_entries {rules : List Rule} {p q : Place} {entry entry' : String × UseItem}
    (h : entry ∈ p.entries rules) (h' : entry' ∈ q.entries rules) (he : entry.1 = entry'.1) :
    p = q := by
  rcases eq_or_eq_numbered_of_mem_entries h with hp | ⟨i, hp⟩ <;>
    rcases eq_or_eq_numbered_of_mem_entries h' with hq | ⟨j, hq⟩
  · exact text_inj (hp.symm.trans (he.trans hq))
  · -- a rule's own position numbers a group, and not another rule's position
    have hnumbered := hp.symm.trans (he.trans hq)
    rw [text_eq_numbered p] at hnumbered
    exact absurd (numbered_inj.1 hnumbered).1 (stem_ne_text p q)
  · have hnumbered := hq.symm.trans (he.symm.trans hp)
    rw [text_eq_numbered q] at hnumbered
    exact absurd (numbered_inj.1 hnumbered).1 (stem_ne_text q p)
  · exact text_inj (numbered_inj.1 (hp.symm.trans (he.trans hq))).1

end Place

/-- No two entries have one position. -/
theorem Rule.nodup_positions (rules : List Rule) : ((Rule.entries rules).map (·.1)).Nodup := by
  unfold entries
  rw [List.map_flatMap, List.nodup_flatMap]
  constructor
  · intro p _
    unfold Place.entries
    split
    · next rule _ => exact rule.body.nodup_positions p.text
    · exact List.nodup_nil
  · refine (Place.nodup_preorder rules).imp fun {p q} hne => List.disjoint_left.2 ?_
    intro position hp hq
    obtain ⟨entry, he, rfl⟩ := List.mem_map.1 hp
    obtain ⟨entry', he', heq⟩ := List.mem_map.1 hq
    exact hne (Place.eq_of_mem_entries he he' heq.symm)

/-! ## Registered options -/

/-- A segment writes no structured options. -/
theorem LoaderSpec.options_ofChars_ne_structured (segment : List Char)
    (fields : List (String × Json)) : (ofChars segment).options ≠ .structured fields := by
  unfold ofChars
  split
  · nofun
  · nofun
  · split <;> nofun

namespace UseItem

theorem loaders_loader_of_obj (position name : String) (fields : List (String × Json))
    (ident : Option String) :
    (UseItem.loader name (some (.obj fields)) ident).loaders position
      = [.ready ⟨name, .structured fields, some ((ident.or (ownIdent fields)).getD position)⟩] := rfl

/-- Options that are no object give no structured options. -/
theorem not_structured_of_fields?_eq_none {position : String} {item : UseItem}
    (h : item.fields? = none) {spec : LoaderSpec} (hs : .ready spec ∈ item.loaders position)
    (fields : List (String × Json)) : spec.options ≠ .structured fields := by
  cases item with
  | request text =>
    obtain ⟨segment, -, he⟩ := List.mem_map.1 hs
    cases he
    exact LoaderSpec.options_ofChars_ne_structured segment fields
  | loader name json ident =>
    cases json with
    | none =>
      cases List.mem_singleton.1 hs
      nofun
    | some json =>
      cases json with
      | null =>
        cases List.mem_singleton.1 hs
        nofun
      | str text =>
        by_cases ht : text = ""
        · simp [loaders, LoaderOptions.ofJson, ht] at hs
          rw [hs]
          nofun
        · simp [loaders, LoaderOptions.ofJson, ht] at hs
          rw [hs]
          nofun
      | obj fields => cases h
      | bool b => simp [loaders, LoaderOptions.ofJson] at hs
      | int n => simp [loaders, LoaderOptions.ofJson] at hs
      | float bits => simp [loaders, LoaderOptions.ofJson] at hs
      | arr items => simp [loaders, LoaderOptions.ofJson] at hs

theorem chosen?_eq_none_of_fields?_eq_none {item : UseItem} (h : item.fields? = none) :
    item.chosen? = none := by
  unfold chosen?
  split
  · cases h
  · rfl

theorem eq_loader_of_fields?_eq_some {item : UseItem} {fields : List (String × Json)}
    (h : item.fields? = some fields) :
    ∃ name ident, item = .loader name (some (.obj fields)) ident := by
  unfold fields? at h
  split at h
  · next name fields' ident =>
    cases h
    exact ⟨name, ident, rfl⟩
  · cases h

/-- What an entry registers is what its loaders do. -/
theorem registered_loaders (position : String) (item : UseItem) :
    registered (item.loaders position) = (item.registers position).toList := by
  unfold registers
  cases h : item.fields? with
  | none =>
    unfold registered
    rw [Option.map_none, Option.toList_none, List.filterMap_eq_nil_iff]
    intro loader hl
    cases loader with
    | malformed name found => rfl
    | ready spec =>
      obtain ⟨name, options, ident⟩ := spec
      cases options with
      | structured fields => exact absurd rfl (not_structured_of_fields?_eq_none h hl fields)
      | absent => rfl
      | inline query => rfl
  | some fields =>
    obtain ⟨name, ident, rfl⟩ := eq_loader_of_fields?_eq_some h
    rfl

/-- A loader with structured options has the identity under which its entry
registers them. -/
theorem registers_of_mem_loaders {position : String} {item : UseItem} {spec : LoaderSpec}
    (hs : .ready spec ∈ item.loaders position) {fields : List (String × Json)}
    (hf : spec.options = .structured fields) :
    ∃ ident, spec.ident = some ident ∧ item.registers position = some (ident, fields) := by
  cases h : item.fields? with
  | none => exact absurd hf (not_structured_of_fields?_eq_none h hs fields)
  | some fields' =>
    obtain ⟨name, ident, rfl⟩ := eq_loader_of_fields?_eq_some h
    rw [loaders_loader_of_obj] at hs
    cases List.mem_singleton.1 hs
    cases hf
    exact ⟨_, rfl, rfl⟩

end UseItem

/-- What the rule at a place registers. -/
def Place.registrations (rules : List Rule) (p : Place) : List (String × List (String × Json)) :=
  (p.entries rules).filterMap fun (position, item) => item.registers position

theorem Rule.registrations_eq_flatMap (rules : List Rule) :
    registrations rules = (Place.preorder rules).flatMap (Place.registrations rules) := by
  unfold registrations entries Place.registrations
  rw [List.filterMap_flatMap]

/-- A rule made ready registers by itself what its entries do. -/
theorem NodeBody.registered_of_compile {rules : List Rule} {p : Place} {rule : Rule}
    {node : NodeBody} (hp : p.rule? rules = some rule) (h : compile p.text rule.body = .ok node) :
    registered node.loaders = p.registrations rules := by
  obtain ⟨-, hl, -⟩ := eq_of_compile h
  rw [RuleBody.loaders_eq_of_ok hl]
  have hentries : p.entries rules = rule.body.items p.text := by
    unfold Place.entries
    rw [hp]
  unfold Place.registrations
  rw [hentries, List.filterMap_eq_flatMap_toList]
  unfold registered
  rw [List.filterMap_flatMap]
  exact List.flatMap_congr fun entry _ => UseItem.registered_loaders entry.1 entry.2

mutual

theorem RuleNode.references_eq_registrations {rules : List Rule} :
    ∀ {rule : Rule} {p : Place} {node : RuleNode},
      p.rule? rules = some rule → RuleNode.compile p.text rule = .ok node →
        node.references = (rule.places p).flatMap (Place.registrations rules)
  | ⟨body, nested, oneOf⟩, p, ⟨nodeBody, nodes, branches⟩, hp, hc => by
      obtain ⟨hbody, hnodes, hbranches⟩ := RuleNode.compile_eq_ok_iff.1 hc
      rw [RuleNode.references, Rule.places, List.flatMap_cons, List.flatMap_append,
        NodeBody.registered_of_compile hp hbody,
        RuleNode.referencesOfAll_eq_registrations (Place.rule?_under hp .nested) (fun _ => rfl)
          hnodes,
        RuleNode.referencesOfAll_eq_registrations (Place.rule?_under hp .branch) (fun _ => rfl)
          hbranches,
        List.append_assoc]
      rfl

theorem RuleNode.referencesOfAll_eq_registrations {rules : List Rule} {site : Nat → Place}
    {position : String} :
    ∀ {group : List Rule} {number : Nat} {nodes : List RuleNode},
      (∀ i, (site (number + i)).rule? rules = group[i]?) →
      (∀ i, (site i).text = numbered position i) →
      RuleNode.compileFrom position number group = .ok nodes →
        RuleNode.referencesOfAll nodes
          = (Rule.placesFrom site number group).flatMap (Place.registrations rules)
  | [], number, nodes, _, _, hc => by
      rw [RuleNode.compileFrom] at hc
      cases hc
      rw [Rule.placesFrom, RuleNode.referencesOfAll]
      rfl
  | rule :: rest, number, nodes, hrule, htext, hc => by
      obtain ⟨first, others, rfl, hf, ho⟩ := RuleNode.compileFrom_cons_eq_ok_iff.1 hc
      rw [← htext] at hf
      have hrest : RuleNode.referencesOfAll others
          = (Rule.placesFrom site (number + 1) rest).flatMap (Place.registrations rules) :=
        RuleNode.referencesOfAll_eq_registrations (Place.rule?_tail hrule) htext ho
      rw [Rule.placesFrom, RuleNode.referencesOfAll, List.flatMap_append, hrest,
        RuleNode.references_eq_registrations (p := site number) (hrule 0) hf]

end

/-! ## Looking up -/

namespace RuleSet

variable {rules : List Rule} {set : RuleSet}

theorem compile_of_isSome (h : (compile rules).toOption.isSome = true) :
    compile rules = .ok ((compile rules).toOption.getD .empty) := by
  cases hc : compile rules with
  | error e =>
    rw [hc] at h
    cases h
  | ok set => rfl

theorem references_eq_registrations (h : compile rules = .ok set) :
    RuleNode.referencesOfAll set.nodes = Rule.registrations rules := by
  obtain ⟨nodes, hn, rfl⟩ := map_eq_ok_iff.1 h
  rw [Rule.registrations_eq_flatMap]
  exact RuleNode.referencesOfAll_eq_registrations (Place.rule?_top rules) (fun _ => rfl) hn

/-- An identity leads to what was registered last under it. -/
theorem options?_eq_some_iff (h : compile rules = .ok set) {ident : String}
    {fields : List (String × Json)} :
    set.options? ident = some fields
      ↔ ∃ earlier later, Rule.registrations rules = earlier ++ (ident, fields) :: later
        ∧ ∀ e ∈ later, e.1 ≠ ident := by
  unfold options?
  rw [references_eq_registrations h, Option.map_eq_some_iff]
  constructor
  · rintro ⟨⟨key, found⟩, hfind, rfl⟩
    obtain ⟨hkey, later, earlier, hsplit, hlater⟩ := List.find?_eq_some_iff_append.1 hfind
    obtain rfl : key = ident := by simpa using hkey
    refine ⟨earlier.reverse, later.reverse, ?_, fun e he => ?_⟩
    · rw [← List.reverse_inj, hsplit]
      simp
    · simpa using hlater e (List.mem_reverse.1 he)
  · rintro ⟨earlier, later, hsplit, hlater⟩
    refine ⟨(ident, fields), List.find?_eq_some_iff_append.2 ?_, rfl⟩
    refine ⟨by simp, later.reverse, earlier.reverse, by rw [hsplit]; simp, fun e he => ?_⟩
    simpa using hlater e (List.mem_reverse.1 he)

theorem options?_eq_none_iff (h : compile rules = .ok set) {ident : String} :
    set.options? ident = none ↔ ∀ e ∈ Rule.registrations rules, e.1 ≠ ident := by
  unfold options?
  rw [references_eq_registrations h, Option.map_eq_none_iff, List.find?_eq_none]
  simp

theorem findOptions_eq_ok_iff {ident : String} {fields : List (String × Json)} :
    set.findOptions ident = .ok fields ↔ set.options? ident = some fields := by
  unfold findOptions
  cases set.options? ident <;> simp

theorem findOptions_eq_error_iff {ident : String} :
    set.findOptions ident = .error (.optionLookup ident) ↔ set.options? ident = none := by
  unfold findOptions
  cases set.options? ident <;> simp

/-- A loader that a rule set gives is one of an entry of its rules. -/
theorem exists_entry_of_use_mem_exec (h : compile rules = .ok set) {facts : Facts}
    {spec : LoaderSpec} {enforce : Enforce} (he : .use spec enforce ∈ set.exec facts) :
    ∃ entry ∈ Rule.entries rules, .ready spec ∈ entry.2.loaders entry.1 := by
  obtain ⟨p, hp, heffect⟩ := exists_place_of_mem_exec h he
  unfold Place.ownEffects at heffect
  split at heffect
  · next rule hrule =>
    rcases List.mem_append.1 heffect with hsetting | huse
    · obtain ⟨setting, -, hs⟩ := List.mem_map.1 hsetting
      cases hs
    · obtain ⟨entry, hentry, hl⟩ := List.mem_flatMap.1 huse
      refine ⟨entry, List.mem_flatMap.2 ⟨p, hp, ?_⟩, ?_⟩
      · unfold Place.entries
        rw [hrule]
        exact hentry
      · obtain ⟨loader, hloader, hs⟩ := List.mem_map.1 hl
        cases loader with
        | ready spec' =>
          cases hs
          exact hloader
        | malformed name found => cases hs
  · cases heffect

/-- Structured options that a rule set gives are registered, under the
identity that comes with them. -/
theorem mem_registrations_of_use_mem_exec (h : compile rules = .ok set) {facts : Facts}
    {spec : LoaderSpec} {enforce : Enforce} (he : .use spec enforce ∈ set.exec facts)
    {fields : List (String × Json)} (hf : spec.options = .structured fields) :
    ∃ ident, spec.ident = some ident ∧ (ident, fields) ∈ Rule.registrations rules := by
  obtain ⟨entry, hentry, hl⟩ := exists_entry_of_use_mem_exec h he
  obtain ⟨ident, hident, hregisters⟩ := UseItem.registers_of_mem_loaders hl hf
  exact ⟨ident, hident, List.mem_filterMap.2 ⟨entry, hentry, hregisters⟩⟩

end RuleSet

namespace Rule

/-- Every identity is chosen or made from a position. -/
theorem perm_identities (rules : List Rule) :
    ((registrations rules).map (·.1)).Perm (chosen rules ++ generated rules) := by
  unfold registrations chosen generated
  induction entries rules with
  | nil => exact List.Perm.refl []
  | cons entry rest ih =>
    obtain ⟨position, item⟩ := entry
    cases hf : item.fields? with
    | none =>
      have hc := UseItem.chosen?_eq_none_of_fields?_eq_none hf
      simpa [UseItem.registers, UseItem.isGenerated, hf, hc] using ih
    | some fields =>
      cases hc : item.chosen? with
      | some ident =>
        simpa [UseItem.registers, UseItem.isGenerated, hf, hc] using ih
      | none =>
        simpa [UseItem.registers, UseItem.isGenerated, hf, hc] using
          List.perm_cons_append_cons position ih

/-- Identities differ where those that are chosen do, among themselves and
from those that are made from positions. -/
theorem nodup_identities {rules : List Rule} (hchosen : (chosen rules).Nodup)
    (hapart : ∀ ident ∈ chosen rules, ident ∉ generated rules) :
    ((registrations rules).map (·.1)).Nodup := by
  have hgenerated : (generated rules).Nodup :=
    (List.filter_sublist.map Prod.fst).nodup (nodup_positions rules)
  refine (perm_identities rules).nodup_iff.2 (List.nodup_append.2 ⟨hchosen, hgenerated, ?_⟩)
  rintro ident hc _ hg rfl
  exact hapart ident hc hg

end Rule

namespace RuleSet

variable {rules : List Rule} {set : RuleSet}

/-- An identity leads to the options that were registered last under it, and
nowhere if there are none. Positions are told apart, so that where the
identities that entries choose are told apart, from each other and from
positions, every loader with structured options is led to its own. -/
theorem findOptions_of_compile (h : compile rules = .ok set) :
    (∀ ident fields, set.findOptions ident = .ok fields
      ↔ ∃ earlier later, Rule.registrations rules = earlier ++ (ident, fields) :: later
        ∧ ∀ e ∈ later, e.1 ≠ ident)
    ∧ (∀ ident, set.findOptions ident = .error (.optionLookup ident)
      ↔ ∀ e ∈ Rule.registrations rules, e.1 ≠ ident)
    ∧ ((Rule.entries rules).map (·.1)).Nodup
    ∧ ((Rule.chosen rules).Nodup → (∀ ident ∈ Rule.chosen rules, ident ∉ Rule.generated rules) →
      ∀ facts spec enforce fields, .use spec enforce ∈ set.exec facts →
        spec.options = .structured fields →
        ∃ ident, spec.ident = some ident ∧ set.findOptions ident = .ok fields) := by
  refine ⟨fun ident fields => ?_, fun ident => ?_, Rule.nodup_positions rules, ?_⟩
  · rw [findOptions_eq_ok_iff, options?_eq_some_iff h]
  · rw [findOptions_eq_error_iff, options?_eq_none_iff h]
  · intro hchosen hapart facts spec enforce fields he hf
    obtain ⟨ident, hident, hmem⟩ := mem_registrations_of_use_mem_exec h he hf
    refine ⟨ident, hident, findOptions_eq_ok_iff.2 ((options?_eq_some_iff h).2 ?_)⟩
    obtain ⟨earlier, later, hsplit⟩ := List.append_of_mem hmem
    refine ⟨earlier, later, hsplit, fun e hlater heq => ?_⟩
    -- the same identity once more, later on, would be registered twice
    have hnodup := Rule.nodup_identities hchosen hapart
    rw [hsplit, List.map_append, List.map_cons, List.nodup_append] at hnodup
    exact (List.nodup_cons.1 hnodup.2.1).1 (List.mem_map.2 ⟨e, hlater, heq⟩)

/-- A rule of which one entry chooses an identity inside its options, one
beside them, and the entry of a branch none. -/
def themedRules : List Rule :=
  [⟨{ uses := some (.many [.loader "a-loader" (some (.obj [("ident", .str "theme")])) none,
        .loader "b-loader" (some (.obj [("depth", .int 1)])) none]) },
    [⟨{ uses := some (.one (.loader "c-loader" (some (.obj [])) (some "skin"))) }, [], []⟩],
    [⟨{ loader := some "d-loader", options := some (.obj [("depth", .int 2)]) }, [], []⟩]⟩]

/-- Every loader is led to its own options, under an identity that was
chosen or one that was made. -/
theorem findOptions_of_themedRules :
    ∃ set, compile themedRules = .ok set
      ∧ (∀ facts spec enforce fields, .use spec enforce ∈ set.exec facts →
          spec.options = .structured fields →
          ∃ ident, spec.ident = some ident ∧ set.findOptions ident = .ok fields)
      ∧ .use ⟨"d-loader", .structured [("depth", .int 2)], some "ref--0-oneOf-0"⟩ .normal
          ∈ set.exec {}
      ∧ set.findOptions "skin" = .ok []
      ∧ set.findOptions "ref--0-0" = .error (.optionLookup "ref--0-0") := by
  have hregistrations : Rule.registrations themedRules
      = [("theme", [("ident", .str "theme")]), ("ref--0-1", [("depth", .int 1)]), ("skin", []),
        ("ref--0-oneOf-0", [("depth", .int 2)])] := by decide +kernel
  have hgives : (compile themedRules).toOption.map (fun set => set.exec {})
      = some [.use ⟨"a-loader", .structured [("ident", .str "theme")], some "theme"⟩ .normal,
        .use ⟨"b-loader", .structured [("depth", .int 1)], some "ref--0-1"⟩ .normal,
        .use ⟨"c-loader", .structured [], some "skin"⟩ .normal,
        .use ⟨"d-loader", .structured [("depth", .int 2)], some "ref--0-oneOf-0"⟩ .normal] := by
    decide +kernel
  cases h : compile themedRules with
  | error e =>
    rw [h] at hgives
    cases hgives
  | ok set =>
    rw [h] at hgives
    obtain ⟨hfound, hmissing, -, hown⟩ := findOptions_of_compile h
    refine ⟨set, rfl, hown (by decide +kernel) (by decide +kernel), ?_, ?_, ?_⟩
    · rw [show set.exec {} = _ from Option.some.inj hgives]
      simp
    · refine (hfound "skin" []).2 ⟨[_, _], [_], hregistrations, ?_⟩
      simp
    · rw [hmissing, hregistrations]
      simp

end RuleSet

end ImportChain
