/-
ImportChain.Proofs.Json.Order — values that differ in the order of fields.

`Reordered` says of two values that they are the same but for the order in
which fields stand, at any depth. Where keys are distinct, settling picks
one of all such values: `reordered_iff_settled_eq`.
-/
import ImportChain.Proofs.Json.Shape
import Mathlib.Data.List.Perm.Basic

namespace ImportChain.Json

/-- Two values that are the same up to the order of fields. -/
inductive Reordered : Json → Json → Prop where
  | refl (value : Json) : Reordered value value
  | arr {items items' : List Json} (each : List.Forall₂ Reordered items items') :
    Reordered (.arr items) (.arr items')
  /-- The fields have the same keys with values that are the same up to the
  order of fields, and then come in another order. -/
  | obj {fields paired fields' : List (String × Json)}
    (keys : KeyMap.keys fields = KeyMap.keys paired)
    (values : List.Forall₂ Reordered (fields.map (·.2)) (paired.map (·.2)))
    (order : paired.Perm fields') : Reordered (.obj fields) (.obj fields')

/-! ## Lists side by side -/

section Lists

variable {α β γ : Type} {f : α → γ} {g : β → γ}

theorem map_eq_map_of_forall₂ {R : α → β → Prop} {as : List α} {bs : List β}
    (h : List.Forall₂ R as bs) (heq : ∀ a ∈ as, ∀ b, R a b → f a = g b) : as.map f = bs.map g := by
  induction h with
  | nil => rfl
  | cons hab _ ih =>
    obtain ⟨hfirst, hrest⟩ := List.forall_mem_cons.1 heq
    rw [List.map_cons, List.map_cons, hfirst _ hab, ih hrest]

theorem forall₂_of_map_eq_map {R : α → β → Prop} : ∀ {as : List α} {bs : List β},
    as.map f = bs.map g → (∀ a ∈ as, ∀ b ∈ bs, f a = g b → R a b) → List.Forall₂ R as bs
  | [], [], _, _ => .nil
  | [], _ :: _, h, _ => nomatch h
  | _ :: _, [], h, _ => nomatch h
  | a :: as, b :: bs, h, hR => by
      obtain ⟨hfirst, hrest⟩ := List.cons.inj h
      refine .cons (hR a List.mem_cons_self b List.mem_cons_self hfirst)
        (forall₂_of_map_eq_map hrest fun a' ha' b' hb' => ?_)
      exact hR a' (List.mem_cons_of_mem a ha') b' (List.mem_cons_of_mem b hb')

/-- Where the images of two lists are in another order, one list can be put in
an order that gives the image of the other. -/
theorem exists_perm_of_map_perm {as : List α} {bs : List β} (h : (as.map f).Perm (bs.map g)) :
    ∃ cs : List β, cs.Perm bs ∧ as.map f = cs.map g := by
  have hmap : List.Forall₂ (fun image b => image = g b) (bs.map g) bs :=
    List.forall₂_map_left_iff.2 (List.forall₂_same.2 fun _ _ => rfl)
  obtain ⟨cs, hcs, hperm⟩ := List.perm_comp_forall₂ h hmap
  refine ⟨cs, hperm, ?_⟩
  have := List.forall₂_map_right_iff.2 hcs
  rwa [List.forall₂_eq_eq_eq] at this

end Lists

/-! ## Settled values stand for all orders -/

theorem map_field_eq_zip (f : Json → Json) (fields : List (String × Json)) :
    fields.map (fun field => (field.1, f field.2))
      = (KeyMap.keys fields).zip ((fields.map (·.2)).map f) := by
  simp [KeyMap.keys, List.zip_map', Function.comp_def]

theorem settled_eq_of_reordered {a b : Json} (hdistinct : a.distinctKeys = true)
    (h : Reordered a b) : a.settled = b.settled := by
  induction a using Json.induction generalizing b with
  | null | bool | int | float | str =>
    cases h
    rfl
  | arr items ih =>
    cases h with
    | refl => rfl
    | arr each =>
      have hitems := distinctKeys_arr_iff.1 hdistinct
      rw [settled_arr, settled_arr, arr.injEq]
      exact map_eq_map_of_forall₂ each fun item hitem _ => ih item hitem (hitems item hitem)
  | obj fields ih =>
    cases h with
    | refl => rfl
    | @obj _ paired fields' hkeys hvalues horder =>
      obtain ⟨hnodup, hfields⟩ := distinctKeys_obj_iff.1 hdistinct
      have hsettled : (fields.map (·.2)).map settled = (paired.map (·.2)).map settled := by
        refine map_eq_map_of_forall₂ hvalues fun value hvalue _ => ?_
        obtain ⟨field, hfield, rfl⟩ := List.mem_map.1 hvalue
        exact ih field hfield (hfields field hfield)
      have hpaired : (KeyMap.keys paired).Nodup := hkeys ▸ hnodup
      rw [settled_obj, settled_obj, ← KeyMap.ofList_map, ← KeyMap.ofList_map, map_field_eq_zip,
        hkeys, hsettled, ← map_field_eq_zip, KeyMap.ofList_map, KeyMap.ofList_map,
        KeyMap.ofList_eq_of_perm horder hpaired]

/-- Only a value without items and fields is settled to one. -/
theorem eq_of_settled_eq_leaf {a b : Json} (harr : a.arr? = none) (hobj : a.obj? = none)
    (h : a.settled = b.settled) : a = b := by
  cases a with
  | arr => cases harr
  | obj => cases hobj
  | null | bool | int | float | str =>
    cases b <;> first | exact h | simp [settled] at h

theorem reordered_of_settled_eq {a b : Json} (ha : a.distinctKeys = true)
    (hb : b.distinctKeys = true) (h : a.settled = b.settled) : Reordered a b := by
  induction a using Json.induction generalizing b with
  | null | bool | int | float | str =>
    rw [eq_of_settled_eq_leaf rfl rfl h]
    exact .refl b
  | arr items ih =>
    cases b with
    | arr items' =>
      have hitems := distinctKeys_arr_iff.1 ha
      have hitems' := distinctKeys_arr_iff.1 hb
      rw [settled_arr, settled_arr, arr.injEq] at h
      exact .arr (forall₂_of_map_eq_map h fun item hitem item' hitem' =>
        ih item hitem (hitems item hitem) (hitems' item' hitem'))
    | _ => simp [settled] at h
  | obj fields ih =>
    cases b with
    | obj fields' =>
      obtain ⟨hnodup, hfields⟩ := distinctKeys_obj_iff.1 ha
      obtain ⟨hnodup', hfields'⟩ := distinctKeys_obj_iff.1 hb
      rw [settled_obj, settled_obj, obj.injEq] at h
      have hperm : (fields.map fun field => (field.1, field.2.settled)).Perm
          (fields'.map fun field => (field.1, field.2.settled)) :=
        ((KeyMap.perm_ofList hnodup).map _).symm.trans (h ▸ (KeyMap.perm_ofList hnodup').map _)
      obtain ⟨paired, horder, hmap⟩ := exists_perm_of_map_perm hperm
      have hkeys : KeyMap.keys fields = KeyMap.keys paired := by
        simpa [KeyMap.keys, Function.comp_def] using congrArg (List.map (·.1)) hmap
      refine .obj hkeys (forall₂_of_map_eq_map (f := settled) (g := settled) ?_ ?_) horder
      · simpa [Function.comp_def] using congrArg (List.map (·.2)) hmap
      · intro value hvalue value' hvalue'
        obtain ⟨field, hfield, rfl⟩ := List.mem_map.1 hvalue
        obtain ⟨field', hfield', rfl⟩ := List.mem_map.1 hvalue'
        exact ih field hfield (hfields field hfield)
          (hfields' field' (horder.mem_iff.1 hfield'))
    | _ => simp [settled] at h

/-- Values with distinct keys are the same up to the order of fields exactly
if they are the same once they are settled. -/
theorem reordered_iff_settled_eq {a b : Json} (ha : a.distinctKeys = true)
    (hb : b.distinctKeys = true) : Reordered a b ↔ a.settled = b.settled :=
  ⟨settled_eq_of_reordered ha, reordered_of_settled_eq ha hb⟩

end ImportChain.Json
