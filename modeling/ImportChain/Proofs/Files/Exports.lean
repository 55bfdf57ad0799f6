/-
ImportChain.Proofs.Files.Exports — the entry that an export leads to.

An export is a tree of conditions with texts at its leaves. A chain of
conditions leads from the export to an entry if it ends at a text
(`Reaches`). Of two chains the one comes first whose condition outranks the
other's where they first differ (`Before`), so that at most one comes before
all others (`FirstChain`).

`exportTarget_first_chain` is the main statement: the search, with all its
turns back, ends at the first of the chains that lead anywhere, and finds
nothing only where none does.

Which export counts for a path below the package is said by `Names`:
`exportEntry_eq_some_iff`.
-/
import ImportChain.Files.Manifest
import ImportChain.Proofs.Outcome
import ImportChain.Proofs.Rule.Settings

namespace ImportChain

namespace Manifest

variable {value inner : Json} {fields : List (String × Json)} {chain other : List String}
  {condition entry : String}

/-! ## Chains of conditions -/

/-- The conditions that count, the most important one first. -/
def priority : List String := ["browser", "import", "default", "require"]

/-- A chain of conditions leads from an export to the text of an entry. -/
structure Reaches (value : Json) (chain : List String) (entry : String) : Prop where
  allowed : ∀ condition ∈ chain, condition ∈ priority
  ends : value.at? chain = some (.str entry)

/-- One condition counts more than another. -/
def Outranks (condition other : String) : Prop :=
  priority.idxOf condition < priority.idxOf other

/-- One chain comes before another: its condition outranks the other's where
they first differ. -/
def Before (chain other : List String) : Prop := List.Lex Outranks chain other

/-- The chain to an entry that comes before all others that lead to one. -/
structure FirstChain (value : Json) (chain : List String) (entry : String) : Prop where
  reaches : Reaches value chain entry
  first : ∀ other entry', Reaches value other entry' → other = chain ∨ Before chain other

theorem Before.asymm (h : Before chain other) : ¬ Before other chain :=
  List.lex_asymm Nat.lt_asymm h

/-- There is one first chain at most. -/
theorem FirstChain.entry_unique {entry' : String} (h : FirstChain value chain entry)
    (h' : FirstChain value other entry') : entry = entry' := by
  have hsame : other = chain := by
    rcases h.first _ _ h'.reaches with hsame | hbefore
    · exact hsame
    · exact (h'.first _ _ h.reaches).elim Eq.symm fun hback => absurd hbefore hback.asymm
  subst hsame
  have htexts : some (Json.str entry) = some (.str entry') :=
    h.reaches.ends.symm.trans h'.reaches.ends
  exact Json.str.inj (Option.some.inj htexts)

theorem reaches_str (entry : String) : Reaches (.str entry) [] entry :=
  ⟨fun _ h => (nomatch h), rfl⟩

theorem reaches_obj_iff :
    Reaches (.obj fields) chain entry
      ↔ ∃ condition rest inner, chain = condition :: rest ∧ condition ∈ priority
          ∧ KeyMap.get? fields condition = some inner ∧ Reaches inner rest entry := by
  constructor
  · rintro ⟨hallowed, hends⟩
    cases chain with
    | nil => cases hends
    | cons condition rest =>
      obtain ⟨inner, hinner, hends⟩ := Option.bind_eq_some_iff.1 hends
      obtain ⟨hcondition, hrest⟩ := List.forall_mem_cons.1 hallowed
      exact ⟨condition, rest, inner, rfl, hcondition, hinner, hrest, hends⟩
  · rintro ⟨condition, rest, inner, rfl, hcondition, hinner, hallowed, hends⟩
    exact ⟨List.forall_mem_cons.2 ⟨hcondition, hallowed⟩,
      Option.bind_eq_some_iff.2 ⟨inner, hinner, hends⟩⟩

/-- What is neither a text nor an object leads nowhere. -/
theorem not_reaches_of_leaf (hstr : value.str? = none) (hobj : value.obj? = none) :
    ¬ Reaches value chain entry := by
  rintro ⟨-, hends⟩
  cases chain with
  | nil =>
    cases hends
    cases hstr
  | cons condition rest =>
    cases value with
    | obj fields => cases hobj
    | null | bool | int | float | str | arr => cases hends

/-! ## The search -/

theorem exportTargets_eq_map (fields : List (String × Json)) :
    exportTargets fields = fields.map fun field => (field.1, exportTarget field.2) :=
  Json.eq_map_of_cons rfl (fun _ _ => rfl) fields

/-- An object leads where the first of its conditions leads that leads
anywhere. -/
theorem exportTarget_obj (fields : List (String × Json)) :
    exportTarget (.obj fields)
      = priority.findSome? fun condition =>
          (KeyMap.get? fields condition).bind exportTarget := by
  rw [exportTarget, exportTargets_eq_map, firstTarget]
  refine congrArg (priority.findSome? ·) (funext fun condition => ?_)
  rw [KeyMap.get?_map]
  cases KeyMap.get? fields condition <;> rfl

/-- What an export comes to: the entry at the end of the first chain, or nothing
if there is no chain. -/
inductive Comes (value : Json) : Option String → Prop where
  | entry {chain : List String} {entry : String} (h : FirstChain value chain entry) :
    Comes value (some entry)
  | nothing (h : ∀ chain entry, ¬ Reaches value chain entry) : Comes value none

theorem comes_str (entry : String) : Comes (.str entry) (some entry) := by
  have hfirst : FirstChain (.str entry) [] entry := by
    refine ⟨reaches_str entry, fun other entry' hother => ?_⟩
    cases other with
    | nil => exact .inl rfl
    | cons condition rest => cases hother.ends
  exact .entry hfirst

theorem comes_leaf (hstr : value.str? = none) (hobj : value.obj? = none) : Comes value none :=
  .nothing fun _ _ => not_reaches_of_leaf hstr hobj

/-- A condition of an object leads on to an entry. -/
def LeadsOn (fields : List (String × Json)) (condition : String) : Prop :=
  ∃ inner rest entry, KeyMap.get? fields condition = some inner ∧ Reaches inner rest entry

/-- A condition gives nothing exactly if no chain goes on from it. -/
theorem bind_exportTarget_eq_none_iff
    (h : ∀ inner, KeyMap.get? fields condition = some inner → Comes inner (exportTarget inner)) :
    (KeyMap.get? fields condition).bind exportTarget = none ↔ ¬ LeadsOn fields condition := by
  unfold LeadsOn
  cases hget : KeyMap.get? fields condition with
  | none => simp
  | some inner =>
    rw [Option.bind_some]
    have hcomes := h inner hget
    generalize exportTarget inner = found at hcomes ⊢
    cases hcomes with
    | entry hfirst => simpa using ⟨_, _, hfirst.reaches⟩
    | nothing hnone => simpa using hnone

/-- The first chain of an object goes on from the first of its conditions that
leads on. -/
theorem firstChain_obj (hearliest : Earliest (LeadsOn fields) priority condition)
    (hget : KeyMap.get? fields condition = some inner) (hfirst : FirstChain inner chain entry) :
    FirstChain (.obj fields) (condition :: chain) entry := by
  refine ⟨reaches_obj_iff.2 ⟨_, _, _, rfl, hearliest.mem.1, hget, hfirst.reaches⟩, ?_⟩
  intro other entry' hother
  obtain ⟨condition', rest, inner', rfl, -, hget', hrest⟩ := reaches_obj_iff.1 hother
  by_cases hsame : condition' = condition
  · subst hsame
    cases hget.symm.trans hget'
    exact (hfirst.first _ _ hrest).imp (congrArg _) .cons
  · exact .inr (.rel (hearliest.idxOf_lt ⟨_, _, _, hget', hrest⟩ hsame))

/-- An object comes to what its values come to: whatever a condition holds that
leads nowhere, the search turns back to the next. -/
theorem comes_obj
    (h : ∀ condition inner, KeyMap.get? fields condition = some inner →
      Comes inner (exportTarget inner)) :
    Comes (.obj fields) (exportTarget (.obj fields)) := by
  have hgives (condition : String) := bind_exportTarget_eq_none_iff (h condition)
  rw [exportTarget_obj]
  cases hfound : priority.findSome? _ with
  | none =>
    refine .nothing fun chain entry hreaches => ?_
    obtain ⟨condition, rest, inner, -, hmem, hget, hrest⟩ := reaches_obj_iff.1 hreaches
    exact (hgives condition).1 (List.findSome?_eq_none_iff.1 hfound condition hmem)
      ⟨inner, rest, entry, hget, hrest⟩
  | some entry =>
    obtain ⟨condition, hearliest, htarget⟩ := (findSome?_eq_some_iff_earliest hgives).1 hfound
    obtain ⟨inner, hget, htarget⟩ := Option.bind_eq_some_iff.1 htarget
    have hcomes := h condition inner hget
    rw [htarget] at hcomes
    cases hcomes with
    | entry hfirst => exact .entry (firstChain_obj hearliest hget hfirst)

theorem comes_exportTarget (value : Json) : Comes value (exportTarget value) := by
  induction value using Json.induction with
  | str entry => exact comes_str entry
  | obj fields ih =>
    exact comes_obj fun condition inner hget =>
      ih (condition, inner) (KeyMap.mem_of_get?_eq_some hget)
  | null | bool | int | float | arr => exact comes_leaf rfl rfl

/-- The search finds the entry at the end of the first chain. -/
theorem exportTarget_eq_some_iff :
    exportTarget value = some entry ↔ ∃ chain, FirstChain value chain entry := by
  have hcomes := comes_exportTarget value
  constructor
  · intro h
    rw [h] at hcomes
    cases hcomes with
    | entry hfirst => exact ⟨_, hfirst⟩
  · rintro ⟨chain, hfirst⟩
    generalize exportTarget value = found at hcomes ⊢
    cases hcomes with
    | entry hother => rw [hother.entry_unique hfirst]
    | nothing hnone => exact absurd hfirst.reaches (hnone _ _)

/-- **The first chain decides.** An export leads to an entry exactly if a chain
of conditions ends at a text, and then to the one at the end of the first such
chain: neither a missing condition nor a value that leads nowhere hides a text
under a condition that is tried later. -/
theorem exportTarget_first_chain (value : Json) :
    ((∃ entry, exportTarget value = some entry) ↔ ∃ chain entry, Reaches value chain entry)
    ∧ ∀ entry, exportTarget value = some entry ↔ ∃ chain, FirstChain value chain entry := by
  refine ⟨?_, fun _ => exportTarget_eq_some_iff⟩
  have hcomes := comes_exportTarget value
  generalize exportTarget value = found at hcomes ⊢
  cases hcomes with
  | @entry chain entry hfirst =>
    exact ⟨fun _ => ⟨chain, entry, hfirst.reaches⟩, fun _ => ⟨entry, rfl⟩⟩
  | nothing hnone =>
    exact ⟨fun ⟨_, h⟩ => (nomatch h), fun ⟨chain, entry, h⟩ => absurd h (hnone chain entry)⟩

/-- The search turns back twice. -/
example :
    exportTarget (.obj [("require", .str "./r.js"), ("import", .obj [("default", .str "./d.js")]),
      ("browser", .obj [("import", .null), ("require", .arr [.str "./a.js"])])])
      = some "./d.js" := by
  decide +kernel

/-! ## The export that counts -/

/-- The key under which exports speak of a path below the package, or of the
package itself. -/
def keyOf : Option String → String
  | some subpath => "./" ++ subpath
  | none => "."

/-- Exports name an entry for a path below the package, or for the package
itself: under its key, or, for the package itself, as a text or as conditions in
place of keys. -/
inductive Names : Json → Option String → String → Prop
  | text (entry : String) : Names (.str entry) none entry
  | atKey {fields : List (String × Json)} {subpath : Option String} {value : Json}
      {chain : List String} {entry : String}
      (hkey : KeyMap.get? fields (keyOf subpath) = some value)
      (first : FirstChain value chain entry) : Names (.obj fields) subpath entry
  | atRoot {fields : List (String × Json)} {chain : List String} {entry : String}
      (hdots : ∀ field ∈ fields, field.1.toList.head? ≠ some '.')
      (first : FirstChain (.obj fields) chain entry) : Names (.obj fields) none entry

theorem exportKey_eq_keyOf : ∀ subpath : Option String, exportKey subpath = keyOf subpath
  | some _ => rfl
  | none => rfl

theorem keyOf_eq_dot_iff {subpath : Option String} : keyOf subpath = "." ↔ subpath = none := by
  cases subpath with
  | none => simp [keyOf]
  | some subpath => simp [keyOf, ← String.toList_inj]

/-- No key begins with a dot. -/
theorem all_keys_undotted_iff :
    (!(fields.any fun (key, _) => key.toList.head? = some '.')) = true
      ↔ ∀ field ∈ fields, field.1.toList.head? ≠ some '.' := by
  simp

/-- The entry of exports is the one that they name. -/
theorem exportEntry_eq_some_iff {exports : Json} {subpath : Option String} :
    exportEntry exports subpath = some entry ↔ Names exports subpath entry := by
  unfold exportEntry
  rw [exportKey_eq_keyOf]
  cases exports with
  | str text =>
    simp only [keyOf_eq_dot_iff, Option.ite_none_right_eq_some]
    constructor
    · rintro ⟨rfl, ⟨⟩⟩
      exact .text _
    · rintro ⟨⟩
      exact ⟨rfl, rfl⟩
  | obj fields =>
    cases hget : KeyMap.get? fields (keyOf subpath) with
    | some value =>
      simp only [hget, exportTarget_eq_some_iff]
      constructor
      · rintro ⟨chain, hfirst⟩
        exact .atKey hget hfirst
      · intro h
        cases h with
        | atKey hkey hfirst =>
          cases hget.symm.trans hkey
          exact ⟨_, hfirst⟩
        | atRoot hdots _ =>
          have hdot : ".".toList.head? = some '.' := by decide
          exact absurd hdot (hdots _ (KeyMap.mem_of_get?_eq_some hget))
    | none =>
      simp only [hget, Option.ite_none_right_eq_some, Bool.and_eq_true, decide_eq_true_eq,
        keyOf_eq_dot_iff, all_keys_undotted_iff, exportTarget_eq_some_iff]
      constructor
      · rintro ⟨⟨rfl, hdots⟩, chain, hfirst⟩
        exact .atRoot hdots hfirst
      · intro h
        cases h with
        | atKey hkey _ => cases hget.symm.trans hkey
        | atRoot hdots hfirst => exact ⟨⟨rfl, hdots⟩, _, hfirst⟩
  | null | bool | int | float | arr =>
    constructor
    · nofun
    · nofun

end Manifest

end ImportChain
