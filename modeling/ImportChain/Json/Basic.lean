/-
ImportChain.Json.Basic — JSON values.

Whole numbers are kept apart from floating numbers, which are held by
their IEEE bits so that values can be compared for identity. An object
is a list of fields: `settled` puts the fields in key order and lets the
later of two equal keys count, which is the form everything but the
reader works with.
-/
import ImportChain.KeyMap

namespace ImportChain

/-- A JSON value. -/
inductive Json where
  | null
  | bool (value : Bool)
  /-- A whole number written without fraction or exponent. -/
  | int (value : Int)
  /-- Any other number, by the bits of its double. -/
  | float (bits : UInt64)
  | str (value : String)
  | arr (items : List Json)
  | obj (fields : List (String × Json))
  deriving Repr, Inhabited

namespace Json

/-! ## Equality -/

mutual

/-- Whether two values are the same value. -/
def same : Json → Json → Bool
  | .null, .null => true
  | .bool a, .bool b => a == b
  | .int a, .int b => a == b
  | .float a, .float b => a == b
  | .str a, .str b => a == b
  | .arr a, .arr b => sameItems a b
  | .obj a, .obj b => sameFields a b
  | _, _ => false

def sameItems : List Json → List Json → Bool
  | [], [] => true
  | a :: as, b :: bs => same a b && sameItems as bs
  | _, _ => false

def sameFields : List (String × Json) → List (String × Json) → Bool
  | [], [] => true
  | (k, a) :: as, (l, b) :: bs => k == l && same a b && sameFields as bs
  | _, _ => false

end

mutual

theorem eq_of_same : ∀ {a b : Json}, same a b = true → a = b
  | .null, .null, _ => rfl
  | .bool a, .bool b, h => by simp_all [same]
  | .int a, .int b, h => by simp_all [same]
  | .float a, .float b, h => by simp_all [same]
  | .str a, .str b, h => by simp_all [same]
  | .arr a, .arr b, h => by rw [same] at h; rw [eq_of_sameItems h]
  | .obj a, .obj b, h => by rw [same] at h; rw [eq_of_sameFields h]

theorem eq_of_sameItems : ∀ {a b : List Json}, sameItems a b = true → a = b
  | [], [], _ => rfl
  | a :: as, b :: bs, h => by
    simp only [sameItems, Bool.and_eq_true] at h
    rw [eq_of_same h.1, eq_of_sameItems h.2]

theorem eq_of_sameFields : ∀ {a b : List (String × Json)}, sameFields a b = true → a = b
  | [], [], _ => rfl
  | (k, a) :: as, (l, b) :: bs, h => by
    simp only [sameFields, Bool.and_eq_true, beq_iff_eq] at h
    rw [h.1.1, eq_of_same h.1.2, eq_of_sameFields h.2]

end

mutual

theorem same_refl : ∀ a : Json, same a a = true
  | .null | .bool _ | .int _ | .float _ | .str _ => by simp [same]
  | .arr items => by simpa [same] using sameItems_refl items
  | .obj fields => by simpa [same] using sameFields_refl fields

theorem sameItems_refl : ∀ a : List Json, sameItems a a = true
  | [] => rfl
  | a :: as => by simp [sameItems, same_refl a, sameItems_refl as]

theorem sameFields_refl : ∀ a : List (String × Json), sameFields a a = true
  | [] => rfl
  | (k, a) :: as => by simp [sameFields, same_refl a, sameFields_refl as]

end

theorem same_iff {a b : Json} : same a b = true ↔ a = b :=
  ⟨eq_of_same, fun h => h ▸ same_refl a⟩

instance : DecidableEq Json := fun _ _ => decidable_of_iff _ same_iff

/-! ## Parts of a value -/

/-- The value of a field, if this is an object that has it. -/
def field? (value : Json) (key : String) : Option Json :=
  match value with
  | .obj fields => KeyMap.get? fields key
  | _ => none

def str? : Json → Option String
  | .str s => some s
  | _ => none

def arr? : Json → Option (List Json)
  | .arr items => some items
  | _ => none

def obj? : Json → Option (List (String × Json))
  | .obj fields => some fields
  | _ => none

def bool? : Json → Option Bool
  | .bool b => some b
  | _ => none

def empty : Json := .obj []

def kind : Json → String
  | .null => "null"
  | .bool _ => "boolean"
  | .int _ | .float _ => "number"
  | .str _ => "string"
  | .arr _ => "array"
  | .obj _ => "object"

/-- A string, or `null` in its absence. -/
def ofStr? : Option String → Json
  | some s => .str s
  | none => .null

/-- The value, or `null` in its absence. -/
def orNull : Option Json → Json
  | some v => v
  | none => .null

/-! ## Objects in key order -/

mutual

/-- The same value with the fields of every object in key order, each key
once. -/
def settled : Json → Json
  | .arr items => .arr (settledItems items)
  | .obj fields => .obj (KeyMap.ofList (settledFields fields))
  | value => value

def settledItems : List Json → List Json
  | [] => []
  | item :: rest => settled item :: settledItems rest

def settledFields : List (String × Json) → List (String × Json)
  | [] => []
  | (key, value) :: rest => (key, settled value) :: settledFields rest

end

end Json

end ImportChain
