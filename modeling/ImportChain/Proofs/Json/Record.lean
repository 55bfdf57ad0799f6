/-
ImportChain.Proofs.Json.Record — records read back from how they are
printed.

A record is printed with each of its fields once, so that a reader finds
under a key what was printed there (`occurrences_of_mem`), also after the
fields have been put in key order (`occurrences_ofList_of_mem`).

`Restores` ties the reader of a value to its printer. It only asks about
values that were read from somewhere: what is kept as JSON is settled on the
way in, and nothing else is read back as it was. A field that may be missing
is printed as `null` where it is, and keeps the law
(`optional?_of_restores`).
-/
import ImportChain.Json.Schema
import ImportChain.Proofs.Json.Shape

namespace ImportChain.Json.Schema

variable {α β : Type} {fields printed : Written α} {key : String} {v : α}

/-! ## Fields under a key -/

theorem mem_of_mem_occurrences (h : v ∈ occurrences fields key) : (key, v) ∈ fields := by
  obtain ⟨⟨k, v'⟩, hmem, hv⟩ := List.mem_filterMap.1 h
  simp only [Option.ite_none_right_eq_some, Option.some.injEq] at hv
  obtain ⟨rfl, rfl⟩ := hv
  exact hmem

theorem occurrences_eq_nil (h : key ∉ KeyMap.keys fields) : occurrences fields key = [] := by
  refine List.eq_nil_iff_forall_not_mem.2 fun v hv => h ?_
  exact List.mem_map_of_mem (mem_of_mem_occurrences hv)

/-- The field of a key that is written once. -/
theorem occurrences_of_mem (h : (KeyMap.keys fields).Nodup) (hmem : (key, v) ∈ fields) :
    occurrences fields key = [v] := by
  induction fields with
  | nil => cases hmem
  | cons field rest ih =>
    obtain ⟨k, v'⟩ := field
    simp only [KeyMap.keys, List.map_cons, List.nodup_cons] at h
    rcases List.mem_cons.1 hmem with heq | hmem
    · cases heq
      have hrest : occurrences rest key = [] := occurrences_eq_nil h.1
      simpa [occurrences] using hrest
    · have hne : k ≠ key := fun e => h.1 (e ▸ List.mem_map_of_mem hmem)
      have hrest := ih h.2 hmem
      simpa [occurrences, hne] using hrest

theorem occurrences_ofList_of_mem (h : (KeyMap.keys fields).Nodup) (hmem : (key, v) ∈ fields) :
    occurrences (KeyMap.ofList fields) key = [v] :=
  occurrences_of_mem (KeyMap.nodup_keys_of_sorted (KeyMap.sorted_ofList fields))
    ((KeyMap.perm_ofList h).mem_iff.2 hmem)

theorem occurrences_map (f : α → β) (fields : Written α) (key : String) :
    occurrences (fields.map fun field => (field.1, f field.2)) key
      = (occurrences fields key).map f := by
  unfold occurrences
  rw [List.filterMap_map, List.map_filterMap]
  congr 1
  funext field
  by_cases h : field.1 = key <;> simp [h]

theorem once?_singleton (key key' : String) (v : α) :
    once? [(key, v)] key' = if key = key' then some v else none := by
  by_cases h : key = key' <;> simp [once?, occurrences, h]

theorem defaulted?_of_occurrences {default : β} {read? : α → Option β}
    (h : occurrences fields key = [v]) : defaulted? default read? fields key = read? v := by
  unfold defaulted?
  rw [h]

/-- What is read of a field with a default is the default or was written. -/
theorem eq_default_or_exists_of_defaulted? {default b : β} {read? : α → Option β}
    (h : defaulted? default read? fields key = some b) :
    b = default ∨ ∃ v, (key, v) ∈ fields ∧ read? v = some b := by
  unfold defaulted? at h
  split at h
  · exact Or.inl (Option.some.inj h).symm
  · next v hocc =>
    exact Or.inr ⟨v, mem_of_mem_occurrences (by rw [hocc]; exact List.mem_singleton_self v), h⟩
  · cases h

/-! ## Lists -/

section List

variable {read? : Json → Option α} {print : α → Json}

/-- What is read of a list is read of its values. -/
theorem exists_mem_of_mapM : ∀ {values : List Json} {list : List α},
    values.mapM read? = some list → ∀ a ∈ list, ∃ value ∈ values, read? value = some a
  | [], list, h => by
      cases h
      exact nofun
  | value :: values, list, h => by
      simp only [List.mapM_cons, Option.pure_def, Option.bind_eq_bind, Option.bind_eq_some_iff,
        Option.some.injEq] at h
      obtain ⟨first, hfirst, rest, hrest, rfl⟩ := h
      intro a ha
      rcases List.mem_cons.1 ha with rfl | ha
      · exact ⟨value, List.mem_cons_self, hfirst⟩
      · obtain ⟨value', hmem, hvalue'⟩ := exists_mem_of_mapM hrest a ha
        exact ⟨value', List.mem_cons_of_mem _ hmem, hvalue'⟩

/-- A list is read back if each of its values is. -/
theorem mapM_map {list : List α} (h : ∀ a ∈ list, read? (print a) = some a) :
    (list.map print).mapM read? = some list := by
  induction list with
  | nil => rfl
  | cons first rest ih =>
    obtain ⟨hfirst, hrest⟩ := List.forall_mem_cons.1 h
    simp [hfirst, ih hrest]

end List

/-! ## Values that may be missing -/

section Optional

variable {read? : Json → Option α} {print : α → Json} {fields printed : Written Json}
  {a : Option α}

/-- Whether what was read from a value is read again from how it is printed,
and is not printed as `null`. -/
def Restores (read? : Json → Option α) (print : α → Json) : Prop :=
  ∀ ⦃value : Json⦄ ⦃a : α⦄, value ≠ .null → read? value = some a →
    print a ≠ .null ∧ read? (print a) = some a

theorem optional?_of_occurrences {value : Json} (h : occurrences fields key = [value])
    (hvalue : value ≠ .null) : optional? read? fields key = (read? value).map some := by
  unfold optional?
  rw [h]
  cases value <;> simp_all

theorem exists_read_of_optional? {x : α} (h : optional? read? fields key = some (some x)) :
    ∃ value, (key, value) ∈ fields ∧ value ≠ .null ∧ read? value = some x := by
  unfold optional? at h
  split at h
  · cases h
  · cases h
  · next value hnull hocc =>
    obtain ⟨x', hx, hsome⟩ := Option.map_eq_some_iff.1 h
    cases hsome
    refine ⟨value, mem_of_mem_occurrences (by rw [hocc]; exact List.mem_singleton_self _), ?_, hx⟩
    rintro rfl
    exact hnull rfl
  · cases h

/-- A field that may be missing is read back from how it is printed. -/
theorem optional?_of_restores (h : Restores read? print)
    (hread : optional? read? fields key = some a)
    (hprinted : occurrences printed key = [Json.orNull (a.map print)]) :
    optional? read? printed key = some a := by
  cases a with
  | none =>
    unfold optional?
    rw [hprinted]
    rfl
  | some x =>
    obtain ⟨value, -, hvalue, hx⟩ := exists_read_of_optional? hread
    obtain ⟨hne, hback⟩ := h hvalue hx
    rw [optional?_of_occurrences hprinted hne]
    show (read? (print x)).map some = _
    rw [hback]
    rfl

theorem ofStr?_eq_orNull (s : Option String) : Json.ofStr? s = Json.orNull (s.map .str) := by
  cases s <;> rfl

theorem restores_str : Restores Json.str? .str := fun _ _ _ _ => ⟨nofun, rfl⟩

/-- What is kept as JSON was settled when it was read. -/
theorem restores_any : Restores any? id := by
  rintro value _ hvalue ⟨⟩
  refine ⟨?_, congrArg some (settled_settled value)⟩
  cases value with
  | null => exact absurd rfl hvalue
  | arr | obj => simp [settled]
  | bool | int | float | str => simp [settled]

end Optional

end ImportChain.Json.Schema
