/-
ImportChain.KeyMap — finite maps with text keys, listed by key.

`insert` keeps a list with strictly increasing keys increasing and replaces
the value of a key that is there. Text is ordered by code points, which
is the order of its UTF-8 bytes.

`get?_insert` is the law of the map; it holds of any list, sorted or not.
-/

namespace ImportChain

/-- A map from text, as a list of entries. -/
abbrev KeyMap (α : Type) := List (String × α)

namespace KeyMap

variable {α : Type}

/-- The value of the first entry under `key`. -/
def get? (m : KeyMap α) (key : String) : Option α :=
  match m with
  | [] => none
  | (k, v) :: rest => if key = k then some v else get? rest key

/-- `m` with `value` under `key`, in the place that key order gives it. -/
def insert (m : KeyMap α) (key : String) (value : α) : KeyMap α :=
  match m with
  | [] => [(key, value)]
  | (k, v) :: rest =>
    if key = k then (key, value) :: rest
    else if key < k then (key, value) :: (k, v) :: rest
    else (k, v) :: insert rest key value

def ofList (entries : List (String × α)) : KeyMap α :=
  entries.foldl (fun m (k, v) => m.insert k v) []

def keys (m : KeyMap α) : List String := m.map (·.1)

def contains (m : KeyMap α) (key : String) : Bool := (m.get? key).isSome

@[simp] theorem get?_nil (key : String) : get? ([] : KeyMap α) key = none := rfl

theorem get?_cons (k : String) (v : α) (rest : KeyMap α) (key : String) :
    get? ((k, v) :: rest) key = if key = k then some v else get? rest key := rfl

/-- Reading after writing. -/
theorem get?_insert (m : KeyMap α) (key : String) (value : α) (other : String) :
    (m.insert key value).get? other = if other = key then some value else m.get? other := by
  induction m with
  | nil => simp [insert, get?]
  | cons entry rest ih =>
    obtain ⟨k, v⟩ := entry
    simp only [insert]
    split
    · next h => subst h; by_cases ho : other = key <;> simp [get?, ho]
    · split
      · simp [get?]
      · next h _ =>
        by_cases ho : other = key
        · subst ho
          simp [get?, h, ih]
        · simp [get?, ho, ih]

theorem get?_insert_self (m : KeyMap α) (key : String) (value : α) :
    (m.insert key value).get? key = some value := by simp [get?_insert]

theorem get?_insert_of_ne (m : KeyMap α) {key other : String} (value : α) (h : other ≠ key) :
    (m.insert key value).get? other = m.get? other := by simp [get?_insert, h]

theorem mem_keys_insert {m : KeyMap α} {key other : String} {value : α} :
    other ∈ (m.insert key value).keys ↔ other = key ∨ other ∈ m.keys := by
  induction m with
  | nil => simp [insert, keys]
  | cons entry rest ih =>
    obtain ⟨k, v⟩ := entry
    simp only [keys] at ih
    simp only [insert]
    split
    · next h => subst h; simp [keys]
    · split
      · simp [keys]
      · simp only [keys, List.map_cons, List.mem_cons, ih]
        exact or_left_comm

/-- Keys that increase go on increasing. -/
theorem sorted_insert {m : KeyMap α} (key : String) (value : α)
    (h : m.keys.Pairwise (· < ·)) : (m.insert key value).keys.Pairwise (· < ·) := by
  induction m with
  | nil => simp [insert, keys]
  | cons entry rest ih =>
    obtain ⟨k, v⟩ := entry
    simp only [keys, List.map_cons, List.pairwise_cons] at h
    simp only [insert]
    split
    · next hk => subst hk; simpa [keys] using h
    · next hne =>
      split
      · next hlt =>
        simp only [keys, List.map_cons, List.pairwise_cons, List.mem_cons]
        refine ⟨?_, h⟩
        rintro a (rfl | ha)
        · exact hlt
        · exact String.lt_trans hlt (h.1 a ha)
      · next hnlt =>
        have hrest := ih h.2
        simp only [keys, List.map_cons, List.pairwise_cons] at hrest ⊢
        refine ⟨?_, hrest⟩
        intro a ha
        rcases mem_keys_insert.1 ha with rfl | ha
        · exact Std.lt_of_le_of_ne (String.not_lt.1 hnlt) (fun e => hne e.symm)
        · exact h.1 a ha

end KeyMap

end ImportChain
