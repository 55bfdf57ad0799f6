/-
ImportChain.Proofs.Json.Shape — values and all that is inside them.

`Json.induction` goes from the items of an array to the array and from the
values of the fields of an object to the object. `everywhere` asks the same
of a value and of everything inside it: that the keys of an object are
distinct (`distinctKeys`), or that a number is a whole number that fits 64
bits (`wholeNumbers`).

`settled` keeps the shape: it is the same value with the fields in another
order, as `Proofs.Json.Order` says.
-/
import ImportChain.Json.Basic
import ImportChain.Proofs.KeyMap

namespace ImportChain.Json

/-! ## Induction -/

/-- What an array has if its items have it, and an object if the values of its
fields have it, every value has. -/
@[elab_as_elim]
theorem induction {motive : Json → Prop} (null : motive .null)
    (bool : ∀ value, motive (.bool value)) (int : ∀ value, motive (.int value))
    (float : ∀ bits, motive (.float bits)) (str : ∀ value, motive (.str value))
    (arr : ∀ items, (∀ item ∈ items, motive item) → motive (.arr items))
    (obj : ∀ fields, (∀ field ∈ fields, motive field.2) → motive (.obj fields))
    (value : Json) : motive value :=
  @Json.rec motive (fun items => ∀ item ∈ items, motive item)
    (fun fields => ∀ field ∈ fields, motive field.2) (fun field => motive field.2)
    null bool int float str arr obj
    (fun _ h => nomatch h) (fun _ _ hfirst hrest => List.forall_mem_cons.2 ⟨hfirst, hrest⟩)
    (fun _ h => nomatch h) (fun _ _ hfirst hrest => List.forall_mem_cons.2 ⟨hfirst, hrest⟩)
    (fun _ _ hvalue => hvalue) value

/-! ## Everything inside a value -/

mutual

/-- Whether a test holds of a value and of every value inside it. -/
def everywhere (test : Json → Bool) : Json → Bool
  | .arr items => test (.arr items) && everywhereItems test items
  | .obj fields => test (.obj fields) && everywhereFields test fields
  | value => test value

def everywhereItems (test : Json → Bool) : List Json → Bool
  | [] => true
  | item :: rest => everywhere test item && everywhereItems test rest

def everywhereFields (test : Json → Bool) : List (String × Json) → Bool
  | [] => true
  | (_, value) :: rest => everywhere test value && everywhereFields test rest

end

section Everywhere

variable {test : Json → Bool} {items : List Json} {fields : List (String × Json)}

/-! One lemma for each form of a value, so that a proof opens one step only. -/

theorem everywhere_int (n : Int) : (int n).everywhere test = test (.int n) := rfl

theorem everywhere_arr (items : List Json) :
    (arr items).everywhere test = (test (.arr items) && everywhereItems test items) := rfl

theorem everywhere_obj (fields : List (String × Json)) :
    (obj fields).everywhere test = (test (.obj fields) && everywhereFields test fields) := rfl

theorem everywhereItems_nil : everywhereItems test [] = true := rfl

theorem everywhereItems_cons (item : Json) (rest : List Json) :
    everywhereItems test (item :: rest) = (item.everywhere test && everywhereItems test rest) := rfl

theorem everywhereFields_nil : everywhereFields test [] = true := rfl

theorem everywhereFields_cons (field : String × Json) (rest : List (String × Json)) :
    everywhereFields test (field :: rest)
      = (field.2.everywhere test && everywhereFields test rest) := rfl

theorem everywhereItems_iff :
    everywhereItems test items = true ↔ ∀ item ∈ items, item.everywhere test = true := by
  induction items with
  | nil => simp [everywhereItems_nil]
  | cons item rest ih => simp [everywhereItems_cons, ih]

theorem everywhereFields_iff :
    everywhereFields test fields = true ↔ ∀ field ∈ fields, field.2.everywhere test = true := by
  induction fields with
  | nil => simp [everywhereFields_nil]
  | cons field rest ih => simp [everywhereFields_cons, ih]

theorem everywhere_arr_iff :
    (arr items).everywhere test = true
      ↔ test (.arr items) = true ∧ ∀ item ∈ items, item.everywhere test = true := by
  rw [everywhere_arr, Bool.and_eq_true, everywhereItems_iff]

theorem everywhere_obj_iff :
    (obj fields).everywhere test = true
      ↔ test (.obj fields) = true ∧ ∀ field ∈ fields, field.2.everywhere test = true := by
  rw [everywhere_obj, Bool.and_eq_true, everywhereFields_iff]

end Everywhere

/-- Whether no object has two fields with one key. -/
def distinctKeys (value : Json) : Bool :=
  value.everywhere fun
    | .obj fields => (KeyMap.keys fields).Nodup
    | _ => true

/-- Whether all numbers are whole numbers that fit 64 bits, the negative ones
with a sign. -/
def wholeNumbers (value : Json) : Bool :=
  value.everywhere fun
    | .int n => -(Nat.pow 2 63 : Int) ≤ n ∧ n < (Nat.pow 2 64 : Int)
    | .float _ => false
    | _ => true

section Shape

variable {items : List Json} {fields : List (String × Json)}

theorem distinctKeys_arr_iff :
    (arr items).distinctKeys = true ↔ ∀ item ∈ items, item.distinctKeys = true := by
  simp [distinctKeys, everywhere_arr_iff]

theorem distinctKeys_obj_iff :
    (obj fields).distinctKeys = true
      ↔ (KeyMap.keys fields).Nodup ∧ ∀ field ∈ fields, field.2.distinctKeys = true := by
  simp [distinctKeys, everywhere_obj_iff]

theorem wholeNumbers_int_iff {n : Int} :
    (int n).wholeNumbers = true ↔ -(Nat.pow 2 63 : Int) ≤ n ∧ n < (Nat.pow 2 64 : Int) := by
  simp [wholeNumbers, everywhere_int]

theorem wholeNumbers_arr_iff :
    (arr items).wholeNumbers = true ↔ ∀ item ∈ items, item.wholeNumbers = true := by
  simp [wholeNumbers, everywhere_arr_iff]

theorem wholeNumbers_obj_iff :
    (obj fields).wholeNumbers = true ↔ ∀ field ∈ fields, field.2.wholeNumbers = true := by
  simp [wholeNumbers, everywhere_obj_iff]

end Shape

/-! ## Depth -/

mutual

/-- How many arrays and objects stand inside each other at most. -/
def depth : Json → Nat
  | .arr items => depthOfItems items + 1
  | .obj fields => depthOfFields fields + 1
  | _ => 0

def depthOfItems : List Json → Nat
  | [] => 0
  | item :: rest => max (depth item) (depthOfItems rest)

def depthOfFields : List (String × Json) → Nat
  | [] => 0
  | (_, value) :: rest => max (depth value) (depthOfFields rest)

end

theorem depth_arr (items : List Json) : (arr items).depth = depthOfItems items + 1 := rfl

theorem depth_obj (fields : List (String × Json)) :
    (obj fields).depth = depthOfFields fields + 1 := rfl

theorem depthOfItems_nil : depthOfItems [] = 0 := rfl

theorem depthOfItems_cons (item : Json) (rest : List Json) :
    depthOfItems (item :: rest) = max item.depth (depthOfItems rest) := rfl

theorem depthOfFields_nil : depthOfFields [] = 0 := rfl

theorem depthOfFields_cons (field : String × Json) (rest : List (String × Json)) :
    depthOfFields (field :: rest) = max field.2.depth (depthOfFields rest) := rfl

theorem depthOfItems_le_iff {items : List Json} {n : Nat} :
    depthOfItems items ≤ n ↔ ∀ item ∈ items, item.depth ≤ n := by
  induction items with
  | nil => simp [depthOfItems_nil]
  | cons item rest ih => rw [depthOfItems_cons, Nat.max_le, ih, List.forall_mem_cons]

theorem depthOfFields_le_iff {fields : List (String × Json)} {n : Nat} :
    depthOfFields fields ≤ n ↔ ∀ field ∈ fields, field.2.depth ≤ n := by
  induction fields with
  | nil => simp [depthOfFields_nil]
  | cons field rest ih => rw [depthOfFields_cons, Nat.max_le, ih, List.forall_mem_cons]

theorem depth_arr_le_iff {items : List Json} {n : Nat} :
    (arr items).depth ≤ n ↔ 0 < n ∧ ∀ item ∈ items, item.depth ≤ n - 1 := by
  rw [← depthOfItems_le_iff, depth_arr]
  omega

theorem depth_obj_le_iff {fields : List (String × Json)} {n : Nat} :
    (obj fields).depth ≤ n ↔ 0 < n ∧ ∀ field ∈ fields, field.2.depth ≤ n - 1 := by
  rw [← depthOfFields_le_iff, depth_obj]
  omega

/-! ## Settled values -/

/-- What goes through a list item by item is a map. -/
theorem eq_map_of_cons {α β : Type} {f : List α → List β} {g : α → β} (nil : f [] = [])
    (cons : ∀ first rest, f (first :: rest) = g first :: f rest) (list : List α) :
    f list = list.map g := by
  induction list with
  | nil => exact nil
  | cons first rest ih => rw [cons, ih, List.map_cons]

theorem settledItems_eq_map (items : List Json) : settledItems items = items.map settled :=
  eq_map_of_cons rfl (fun _ _ => rfl) items

theorem settledFields_eq_map (fields : List (String × Json)) :
    settledFields fields = fields.map fun field => (field.1, field.2.settled) :=
  eq_map_of_cons rfl (fun _ _ => rfl) fields

theorem settled_arr (items : List Json) : (arr items).settled = .arr (items.map settled) :=
  congrArg Json.arr (settledItems_eq_map items)

/-- The fields of a settled object are those of the object in key order, each
with its value settled. -/
theorem settled_obj (fields : List (String × Json)) :
    (obj fields).settled
      = .obj ((KeyMap.ofList fields).map fun field => (field.1, field.2.settled)) := by
  have hfields : (obj fields).settled = .obj (KeyMap.ofList (settledFields fields)) := rfl
  rw [hfields, settledFields_eq_map, KeyMap.ofList_map]

/-- A settled value is settled. -/
theorem settled_settled (value : Json) : value.settled.settled = value.settled := by
  induction value using Json.induction with
  | null | bool | int | float | str => rfl
  | arr items ih =>
    simp only [settled_arr, List.map_map, arr.injEq]
    exact List.map_congr_left ih
  | obj fields ih =>
    have hsorted := KeyMap.sorted_ofList fields
    simp only [settled_obj, KeyMap.ofList_map, KeyMap.ofList_of_sorted hsorted, List.map_map,
      obj.injEq]
    refine List.map_congr_left fun field hfield => ?_
    simp only [Function.comp, ih field (KeyMap.mem_of_mem_ofList hfield)]

/-- A settled value has distinct keys, whatever it was settled from. -/
theorem distinctKeys_settled (value : Json) : value.settled.distinctKeys = true := by
  induction value using Json.induction with
  | null | bool | int | float | str => rfl
  | arr items ih =>
    rw [settled_arr, distinctKeys_arr_iff, List.forall_mem_map]
    exact ih
  | obj fields ih =>
    have hkeys : KeyMap.keys ((KeyMap.ofList fields).map fun field => (field.1, field.2.settled))
        = (KeyMap.ofList fields).keys := by
      simp [KeyMap.keys, Function.comp_def]
    rw [settled_obj, distinctKeys_obj_iff, List.forall_mem_map, hkeys]
    exact ⟨KeyMap.nodup_keys_of_sorted (KeyMap.sorted_ofList fields),
      fun field hfield => ih field (KeyMap.mem_of_mem_ofList hfield)⟩

/-- Settling keeps a value as deep as it was, or makes it less so. -/
theorem depth_settled_le (value : Json) : value.settled.depth ≤ value.depth := by
  induction value using Json.induction with
  | null | bool | int | float | str => exact Nat.le_refl _
  | arr items ih =>
    have hdepth := depth_arr_le_iff.1 (Nat.le_refl (arr items).depth)
    rw [settled_arr, depth_arr_le_iff, List.forall_mem_map]
    exact ⟨hdepth.1, fun item hitem => Nat.le_trans (ih item hitem) (hdepth.2 item hitem)⟩
  | obj fields ih =>
    have hdepth := depth_obj_le_iff.1 (Nat.le_refl (obj fields).depth)
    rw [settled_obj, depth_obj_le_iff, List.forall_mem_map]
    refine ⟨hdepth.1, fun field hfield => ?_⟩
    have hmem := KeyMap.mem_of_mem_ofList hfield
    exact Nat.le_trans (ih field hmem) (hdepth.2 field hmem)

theorem str?_settled (value : Json) : value.settled.str? = value.str? := by
  cases value with
  | arr items => rw [settled_arr]; rfl
  | obj fields => rw [settled_obj]; rfl
  | null | bool | int | float | str => rfl

theorem arr?_settled (value : Json) : value.settled.arr? = value.arr?.map (·.map settled) := by
  cases value with
  | arr items => rw [settled_arr]; rfl
  | obj fields => rw [settled_obj]; rfl
  | null | bool | int | float | str => rfl

/-- A field of a settled object is the field of the object, settled. -/
theorem field?_settled {value : Json} (h : value.distinctKeys = true) (key : String) :
    value.settled.field? key = (value.field? key).map settled := by
  cases value with
  | obj fields =>
    have hnodup := (distinctKeys_obj_iff.1 h).1
    have hget := KeyMap.get?_eq_of_perm (KeyMap.perm_ofList hnodup).symm hnodup key
    simp only [settled_obj, field?, KeyMap.get?_map]
    rw [hget]
  | arr items => rw [settled_arr]; rfl
  | null | bool | int | float | str => rfl

end ImportChain.Json
