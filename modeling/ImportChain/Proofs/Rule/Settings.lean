/-
ImportChain.Proofs.Rule.Settings — which contribution a setting shows.

A place inside a value is a path of keys. A value overrides a place if it
has something there, or something other than an object on the way to it:
what was there before cannot stay. `at?_mergeValue` says what one
contribution does to one place, by recursion along the path.

`at?_applyAll_iff` is the main statement, about every sequence of
contributions: what is no object stands at a place exactly if some
contribution put it there and no later one overrode the place.
-/
import ImportChain.Rule.Settings
import ImportChain.Proofs.Json.Shape

namespace ImportChain

namespace Json

/-! ## Places -/

/-- What stands in a value at the end of a path of keys. -/
def at? (value : Json) : List String → Option Json
  | [] => some value
  | key :: path => (value.field? key).bind (·.at? path)

/-- Whether a value leaves nothing of what stood at a place: it has something
there, or something other than an object on the way to it. -/
def Overrides (value : Json) (path : List String) : Prop :=
  (value.at? path).isSome = true
    ∨ ∃ start other, start <+: path ∧ start ≠ path ∧ value.at? start = some other
        ∧ other.obj? = none

variable {value : Json} {key : String} {path : List String}

theorem obj?_eq_some_iff {fields : List (String × Json)} :
    value.obj? = some fields ↔ value = .obj fields := by
  cases value <;> simp [obj?]

theorem at?_obj_cons (fields : List (String × Json)) (key : String) (path : List String) :
    (obj fields).at? (key :: path) = (KeyMap.get? fields key).bind (·.at? path) := rfl

theorem overrides_nil (value : Json) : value.Overrides [] := Or.inl rfl

theorem overrides_cons_of_not_obj (h : value.obj? = none) (key : String) (path : List String) :
    value.Overrides (key :: path) :=
  Or.inr ⟨[], value, List.nil_prefix, List.cons_ne_nil key path |>.symm, rfl, h⟩

theorem overrides_obj_cons {fields : List (String × Json)} :
    (obj fields).Overrides (key :: path)
      ↔ ∃ inner, KeyMap.get? fields key = some inner ∧ inner.Overrides path := by
  constructor
  · rintro (hsome | ⟨start, other, hstart, hne, hother, hobj⟩)
    · rw [at?_obj_cons] at hsome
      cases hget : KeyMap.get? fields key with
      | none => rw [hget] at hsome; cases hsome
      | some inner => rw [hget] at hsome; exact ⟨inner, rfl, Or.inl hsome⟩
    · cases start with
      | nil => cases hother; cases hobj
      | cons k start =>
        obtain ⟨rfl, hprefix⟩ := List.cons_prefix_cons.1 hstart
        rw [at?_obj_cons] at hother
        obtain ⟨inner, hget, hother⟩ := Option.bind_eq_some_iff.1 hother
        refine ⟨inner, hget, Or.inr ⟨start, other, hprefix, ?_, hother, hobj⟩⟩
        exact fun e => hne (e ▸ rfl)
  · rintro ⟨inner, hget, hsome | ⟨start, other, hstart, hne, hother, hobj⟩⟩
    · exact Or.inl (by rw [at?_obj_cons, hget]; exact hsome)
    · refine Or.inr ⟨key :: start, other, List.cons_prefix_cons.2 ⟨rfl, hstart⟩, ?_, ?_, hobj⟩
      · exact fun e => hne (List.cons.inj e).2
      · rw [at?_obj_cons, hget]
        exact hother

/-! ## Merging -/

theorem mergeValue_of_not_obj (h : value.obj? = none) (old : Option Json) :
    mergeValue old value = value := by
  cases value <;> first | rfl | cases h

/-- An object that comes over anything but an object takes its place. -/
theorem mergeValue_obj_of_not_obj {old : Option Json} (h : old.bind obj? = none)
    (fields : List (String × Json)) : mergeValue old (.obj fields) = .obj fields := by
  match old with
  | none => rfl
  | some (.obj _) => cases h
  | some .null | some (.bool _) | some (.int _) | some (.float _) | some (.str _)
  | some (.arr _) => rfl

/-- The field of an object into which another has been merged. -/
theorem get?_mergeFields : ∀ {incoming : List (String × Json)} (existing : List (String × Json)),
    (KeyMap.keys incoming).Nodup → ∀ key, KeyMap.get? (mergeFields existing incoming) key
      = match KeyMap.get? incoming key with
        | none => KeyMap.get? existing key
        | some value => some (mergeValue (KeyMap.get? existing key) value)
  | [], _, _, _ => by rw [mergeFields]; rfl
  | (k, v) :: rest, existing, h, key => by
      obtain ⟨hk, hrest⟩ := List.nodup_cons.1 h
      rw [mergeFields, get?_mergeFields _ hrest key]
      by_cases he : key = k
      · subst he
        rw [KeyMap.get?_eq_none_iff.2 hk]
        simp [KeyMap.get?_insert, KeyMap.get?]
      · simp [KeyMap.get?_insert, KeyMap.get?, he]

theorem mergeValue_none (value : Json) : mergeValue none value = value := by
  cases value <;> rfl

/-- The field of what is at a place after an object has come: the field that
came, merged into the one that was there, or the one that was there. -/
theorem field?_mergeValue_obj {fields : List (String × Json)} (h : (KeyMap.keys fields).Nodup)
    (old : Option Json) (key : String) :
    (mergeValue old (.obj fields)).field? key
      = match KeyMap.get? fields key with
        | none => old.bind (·.field? key)
        | some value => some (mergeValue (old.bind (·.field? key)) value) := by
  cases hold : old.bind obj? with
  | none =>
    have hfield : old.bind (·.field? key) = none := by
      cases old with
      | none => rfl
      | some before => cases before <;> first | rfl | cases hold
    rw [mergeValue_obj_of_not_obj hold, hfield, field?]
    cases KeyMap.get? fields key with
    | none => rfl
    | some value => simp only [mergeValue_none]
  | some existing =>
    obtain ⟨before, rfl, hbefore⟩ := Option.bind_eq_some_iff.1 hold
    obtain rfl := obj?_eq_some_iff.1 hbefore
    rw [mergeValue]
    exact get?_mergeFields existing h key

/-- What stands at a place after one value has come over another: what the new
one has there, or else, unless the new one overrides the place, what the old
one had. -/
theorem at?_mergeValue {leaf : Json} (hleaf : leaf.obj? = none) :
    ∀ (path : List String) {old : Option Json} {value : Json}, value.distinctKeys = true →
      ((mergeValue old value).at? path = some leaf
        ↔ value.at? path = some leaf
          ∨ ¬ value.Overrides path ∧ old.bind (·.at? path) = some leaf)
  | [], old, value, _ => by
      cases hobj : value.obj? with
      | none => simp [mergeValue_of_not_obj hobj, overrides_nil]
      | some fields =>
        obtain rfl := obj?_eq_some_iff.1 hobj
        have hne : ∀ fields, Json.obj fields ≠ leaf := by rintro fields rfl; cases hleaf
        have hmerged : ∃ merged, mergeValue old (.obj fields) = .obj merged := by
          unfold mergeValue; split <;> exact ⟨_, rfl⟩
        obtain ⟨merged, hmerged⟩ := hmerged
        simp [hmerged, at?, hne, overrides_nil]
  | key :: path, old, value, hdistinct => by
      cases hobj : value.obj? with
      | none => simp [mergeValue_of_not_obj hobj, overrides_cons_of_not_obj hobj]
      | some fields =>
        obtain rfl := obj?_eq_some_iff.1 hobj
        obtain ⟨hnodup, hfields⟩ := distinctKeys_obj_iff.1 hdistinct
        have hold : old.bind (·.at? (key :: path))
            = (old.bind (·.field? key)).bind (·.at? path) := by
          rw [Option.bind_assoc]; rfl
        rw [at?, field?_mergeValue_obj hnodup, at?_obj_cons, overrides_obj_cons, hold]
        cases hget : KeyMap.get? fields key with
        | none => simp
        | some inner =>
          have hinner := hfields _ (KeyMap.mem_of_get?_eq_some hget)
          simp [at?_mergeValue hleaf path hinner]

end Json

/-! ## Contributions -/

namespace Settings

variable {s : Settings} {key other : String} {value leaf : Json} {path : List String}

/-- What stands in a setting at the end of a path of keys. -/
def at? (s : Settings) (key : String) (path : List String) : Option Json :=
  (s.get? key).bind (·.at? path)

/-- A contribution changes no other setting. -/
theorem get?_apply_of_ne (s : Settings) (value : Json) (h : other ≠ key) :
    (s.apply key value).get? other = s.get? other :=
  KeyMap.get?_insert_of_ne _ _ h

/-- What stands at a place after one contribution. -/
theorem at?_apply_iff (hleaf : leaf.obj? = none) (hdistinct : value.distinctKeys = true) :
    (s.apply key value).at? other path = some leaf
      ↔ (key = other ∧ value.at? path = some leaf)
        ∨ ¬ (key = other ∧ value.Overrides path) ∧ s.at? other path = some leaf := by
  by_cases h : other = key
  · subst h
    have hget : (s.apply other value).get? other
        = some (Json.mergeValue (s.get? other) value) := KeyMap.get?_insert_self ..
    rw [at?, hget, Option.bind_some, Json.at?_mergeValue hleaf path hdistinct, at?]
    simp
  · have h' : key ≠ other := fun e => h e.symm
    simp [at?, get?_apply_of_ne s value h, h']

/-- What stands at a place after contributions: what one of them put there
without a later one overriding the place, or what stood there before and none
of them overrode. -/
theorem at?_applyAll (hleaf : leaf.obj? = none) : ∀ {steps : List (String × Json)} {s : Settings},
    (∀ step ∈ steps, step.2.distinctKeys = true) →
      ((s.applyAll steps).at? key path = some leaf
        ↔ (∃ before value after, steps = before ++ (key, value) :: after
            ∧ value.at? path = some leaf
            ∧ ∀ step ∈ after, step.1 = key → ¬ step.2.Overrides path)
          ∨ (∀ step ∈ steps, step.1 = key → ¬ step.2.Overrides path)
            ∧ s.at? key path = some leaf)
  | [], s, _ => by simp [applyAll]
  | (k, v) :: steps, s, hdistinct => by
      obtain ⟨hfirst, hrest⟩ := List.forall_mem_cons.1 hdistinct
      have hstep : (s.applyAll ((k, v) :: steps)) = (s.apply k v).applyAll steps := rfl
      rw [hstep, at?_applyAll hleaf hrest, at?_apply_iff hleaf hfirst]
      constructor
      · rintro (⟨before, value, after, rfl, hput⟩ | ⟨hkeep, ⟨rfl, hput⟩ | ⟨hfirst, hbefore⟩⟩)
        · exact Or.inl ⟨(k, v) :: before, value, after, rfl, hput⟩
        · exact Or.inl ⟨[], v, steps, rfl, hput, hkeep⟩
        · refine Or.inr ⟨List.forall_mem_cons.2 ⟨fun hk ho => hfirst ⟨hk, ho⟩, hkeep⟩, hbefore⟩
      · rintro (⟨before, value, after, hsplit, hput, hkeep⟩ | ⟨hkeep, hbefore⟩)
        · cases before with
          | nil =>
            obtain ⟨he, rfl⟩ := List.cons.inj hsplit
            cases he
            exact Or.inr ⟨hkeep, Or.inl ⟨rfl, hput⟩⟩
          | cons step before =>
            exact Or.inl ⟨before, value, after, (List.cons.inj hsplit).2, hput, hkeep⟩
        · obtain ⟨hfirst, hkeep⟩ := List.forall_mem_cons.1 hkeep
          exact Or.inr ⟨hkeep, Or.inr ⟨fun h => hfirst h.1 h.2, hbefore⟩⟩

/-- Contributions, one after the other, make the settings in which the last
writer of every place is seen: what is no object stands at a place under a
key exactly if a contribution to the key put it there and no later one
overrode the place. A contribution to another key changes nothing. -/
theorem at?_applyAll_iff {steps : List (String × Json)}
    (hdistinct : ∀ step ∈ steps, step.2.distinctKeys = true) (key : String) (path : List String)
    (hleaf : leaf.obj? = none) :
    ((empty.applyAll steps).at? key path = some leaf
        ↔ ∃ before value after, steps = before ++ (key, value) :: after
          ∧ value.at? path = some leaf
          ∧ ∀ step ∈ after, step.1 = key → ¬ step.2.Overrides path)
      ∧ ∀ (s : Settings) (other : String) (value : Json),
          other ≠ key → (s.apply other value).get? key = s.get? key := by
  refine ⟨?_, fun s other value hne => get?_apply_of_ne s value hne.symm⟩
  have hempty : empty.at? key path = none := rfl
  rw [at?_applyAll hleaf hdistinct, hempty]
  simp

/-- An alias stays where a later contribution brings another alias and
replaces the list beside them. -/
theorem at?_applyAll_of_mergedAliases :
    (empty.applyAll
        [("resolve", .obj [("mainFields", .arr [.str "main"]), ("alias", .obj [("a", .str "/x")])]),
          ("type", .str "json"),
          ("resolve", .obj [("alias", .obj [("b", .str "/y")]), ("mainFields", .null)])]).at?
      "resolve" ["alias", "a"] = some (.str "/x") := by
  refine ((at?_applyAll_iff (by decide) "resolve" ["alias", "a"] rfl).1).2
    ⟨[], _, _, rfl, rfl, fun step hstep hkey hover => ?_⟩
  rcases List.mem_cons.1 hstep with rfl | hstep
  · exact absurd hkey (by decide)
  · obtain rfl := List.mem_singleton.1 hstep
    obtain ⟨inner, hinner, hover⟩ := Json.overrides_obj_cons.1 hover
    cases hinner
    obtain ⟨value, hvalue, _⟩ := Json.overrides_obj_cons.1 hover
    cases hvalue

end Settings

end ImportChain
