/-
ImportChain.Proofs.KeyMap — entries put in key order.

`ofList` takes entries one by one. Whatever their order was, the result is
in key order (`sorted_ofList`) and holds no other entries than those given
(`mem_of_mem_ofList`); if their keys are distinct it holds all of them
(`perm_ofList`), so that two orders of the same entries have one result
(`ofList_eq_of_perm`).
-/
import ImportChain.KeyMap
import Mathlib.Data.List.Nodup

namespace ImportChain.KeyMap

variable {α β : Type} {m m' : KeyMap α} {key : String} {value : α}

/-! ## One entry -/

theorem mem_of_mem_insert {entry : String × α} (h : entry ∈ m.insert key value) :
    entry = (key, value) ∨ entry ∈ m := by
  induction m with
  | nil => exact Or.inl (by simpa [insert] using h)
  | cons first rest ih =>
    obtain ⟨k, v⟩ := first
    simp only [insert] at h
    split at h
    · rcases List.mem_cons.1 h with h | h
      · exact Or.inl h
      · exact Or.inr (List.mem_cons_of_mem _ h)
    · split at h
      · exact List.mem_cons.1 h
      · rcases List.mem_cons.1 h with rfl | h
        · exact Or.inr List.mem_cons_self
        · exact (ih h).imp_right (List.mem_cons_of_mem _)

theorem perm_insert (h : key ∉ m.keys) : (m.insert key value).Perm ((key, value) :: m) := by
  induction m with
  | nil => rfl
  | cons first rest ih =>
    obtain ⟨k, v⟩ := first
    simp only [keys, List.map_cons, List.mem_cons, not_or] at h
    simp only [insert, if_neg h.1]
    split
    · rfl
    · exact ((ih h.2).cons (k, v)).trans (List.Perm.swap ..)

/-- A key after all others comes last. -/
theorem insert_of_forall_lt (h : ∀ k ∈ m.keys, k < key) :
    m.insert key value = m ++ [(key, value)] := by
  induction m with
  | nil => rfl
  | cons first rest ih =>
    obtain ⟨k, v⟩ := first
    simp only [keys, List.map_cons, List.forall_mem_cons] at h
    have hne : key ≠ k := fun e => String.lt_irrefl k (e ▸ h.1)
    have hlt : ¬ key < k := fun h' => String.lt_irrefl k (String.lt_trans h.1 h')
    simp only [insert, if_neg hne, if_neg hlt, List.cons_append, List.cons.injEq, true_and]
    exact ih h.2

theorem insert_map (f : α → β) :
    KeyMap.insert (m.map fun entry => (entry.1, f entry.2)) key (f value)
      = (m.insert key value).map fun entry => (entry.1, f entry.2) := by
  induction m with
  | nil => rfl
  | cons first rest ih =>
    obtain ⟨k, v⟩ := first
    simp only [List.map_cons, insert]
    split
    · rfl
    · split
      · rfl
      · simp only [ih, List.map_cons]

/-! ## Looking up -/

theorem mem_of_get?_eq_some (h : m.get? key = some value) : (key, value) ∈ m := by
  induction m with
  | nil => cases h
  | cons first rest ih =>
    obtain ⟨k, v⟩ := first
    simp only [get?] at h
    split at h
    · next hk =>
      cases h
      exact hk ▸ List.mem_cons_self
    · exact List.mem_cons_of_mem _ (ih h)

theorem get?_eq_none_iff : m.get? key = none ↔ key ∉ m.keys := by
  induction m with
  | nil => simp [keys]
  | cons first rest ih =>
    obtain ⟨k, v⟩ := first
    simp only [keys] at ih
    by_cases hk : key = k
    · simp [get?, keys, hk]
    · simp [get?, keys, hk, ih]

theorem get?_eq_some_iff (h : m.keys.Nodup) : m.get? key = some value ↔ (key, value) ∈ m := by
  refine ⟨mem_of_get?_eq_some, fun hmem => ?_⟩
  induction m with
  | nil => cases hmem
  | cons first rest ih =>
    obtain ⟨k, v⟩ := first
    simp only [keys, List.map_cons, List.nodup_cons] at h
    rcases List.mem_cons.1 hmem with he | hmem
    · cases he
      simp [get?]
    · have hne : key ≠ k := fun e => h.1 (e ▸ List.mem_map_of_mem hmem)
      simp only [get?, if_neg hne]
      exact ih h.2 hmem

theorem get?_eq_of_perm (hp : m.Perm m') (h : m.keys.Nodup) (key : String) :
    m.get? key = m'.get? key := by
  have h' : m'.keys.Nodup := (hp.map _).nodup_iff.1 h
  refine Option.ext fun value => ?_
  rw [get?_eq_some_iff h, get?_eq_some_iff h', hp.mem_iff]

theorem get?_map (f : α → β) (m : KeyMap α) (key : String) :
    get? (m.map fun entry => (entry.1, f entry.2)) key = (m.get? key).map f := by
  induction m with
  | nil => rfl
  | cons first rest ih =>
    simp only [List.map_cons, get?, ih]
    split <;> rfl

/-! ## All entries -/

/-- Entries taken into a map, one after the other. -/
def insertAll (m : KeyMap α) (entries : List (String × α)) : KeyMap α :=
  entries.foldl (fun m entry => m.insert entry.1 entry.2) m

theorem mem_of_mem_insertAll {entry : String × α} : ∀ {entries : List (String × α)} {m : KeyMap α},
    entry ∈ m.insertAll entries → entry ∈ m ∨ entry ∈ entries
  | [], _, h => Or.inl h
  | first :: entries, m, h => by
      rcases mem_of_mem_insertAll (m := m.insert first.1 first.2) h with h | h
      · rcases mem_of_mem_insert h with rfl | h
        · exact Or.inr List.mem_cons_self
        · exact Or.inl h
      · exact Or.inr (List.mem_cons_of_mem _ h)

theorem sorted_insertAll : ∀ {entries : List (String × α)} {m : KeyMap α},
    m.keys.Pairwise (· < ·) → (m.insertAll entries).keys.Pairwise (· < ·)
  | [], _, h => h
  | first :: _, m, h =>
      sorted_insertAll (m := m.insert first.1 first.2) (sorted_insert _ _ h)

theorem perm_insertAll : ∀ {entries : List (String × α)} {m : KeyMap α},
    (m.keys ++ keys entries).Nodup → (m.insertAll entries).Perm (m ++ entries)
  | [], m, _ => by
      rw [List.append_nil]
      rfl
  | first :: entries, m, h => by
      have hfirst : first.1 ∉ m.keys := fun hmem =>
        (List.nodup_append.1 h).2.2 _ hmem _ List.mem_cons_self rfl
      have hp : (m.insert first.1 first.2).Perm (first :: m) := perm_insert hfirst
      have hall : (m.insert first.1 first.2 ++ entries).Perm (m ++ first :: entries) :=
        (hp.append_right entries).trans List.perm_middle.symm
      have hkeys : ((m.insert first.1 first.2).keys ++ keys entries).Nodup := by
        have := (hall.map (·.1)).nodup_iff.2 (by simpa [keys] using h)
        simpa [keys] using this
      exact (perm_insertAll hkeys).trans hall

theorem insertAll_of_sorted : ∀ {entries : List (String × α)} {m : KeyMap α},
    (m.keys ++ keys entries).Pairwise (· < ·) → m.insertAll entries = m ++ entries
  | [], m, _ => (List.append_nil m).symm
  | first :: entries, m, h => by
      have hlast : m.insert first.1 first.2 = m ++ [first] :=
        insert_of_forall_lt fun k hk => (List.pairwise_append.1 h).2.2 k hk _ List.mem_cons_self
      have hrest : ((m ++ [first]).keys ++ keys entries).Pairwise (· < ·) := by
        simpa [keys] using h
      calc m.insertAll (first :: entries) = (m ++ [first]).insertAll entries := by
            rw [← hlast]
            rfl
        _ = m ++ first :: entries := by rw [insertAll_of_sorted hrest, List.append_assoc]; rfl

theorem insertAll_map (f : α → β) : ∀ (entries : List (String × α)) (m : KeyMap α),
    insertAll (m.map fun entry => (entry.1, f entry.2))
        (entries.map fun entry => (entry.1, f entry.2))
      = (m.insertAll entries).map fun entry => (entry.1, f entry.2)
  | [], _ => rfl
  | first :: entries, m => by
      have hstep := insertAll_map f entries (m.insert first.1 first.2)
      rw [← insert_map] at hstep
      exact hstep

/-! ## Maps of entries -/

theorem mem_of_mem_ofList {entry : String × α} {entries : List (String × α)}
    (h : entry ∈ ofList entries) : entry ∈ entries :=
  (mem_of_mem_insertAll (m := []) h).resolve_left (fun h => nomatch h)

theorem sorted_ofList (entries : List (String × α)) : (ofList entries).keys.Pairwise (· < ·) :=
  sorted_insertAll (m := []) List.Pairwise.nil

theorem nodup_keys_of_sorted (h : m.keys.Pairwise (· < ·)) : m.keys.Nodup := by
  refine h.imp ?_
  rintro k _ hlt rfl
  exact String.lt_irrefl k hlt

theorem perm_ofList (h : m.keys.Nodup) : (ofList m).Perm m :=
  perm_insertAll (m := []) h

theorem ofList_of_sorted (h : m.keys.Pairwise (· < ·)) : ofList m = m :=
  insertAll_of_sorted (m := []) h

theorem ofList_map (f : α → β) (entries : List (String × α)) :
    ofList (entries.map fun entry => (entry.1, f entry.2))
      = (ofList entries).map fun entry => (entry.1, f entry.2) :=
  insertAll_map f entries []

/-- Entries in another order make the same map. -/
theorem ofList_eq_of_perm (hp : m.Perm m') (h : m.keys.Nodup) : ofList m = ofList m' := by
  have h' : m'.keys.Nodup := (hp.map _).nodup_iff.1 h
  have hmaps : (ofList m).Perm (ofList m') :=
    (perm_ofList h).trans (hp.trans (perm_ofList h').symm)
  have hsorted : ∀ entries : List (String × α), (ofList entries).Pairwise (·.1 < ·.1) :=
    fun entries => List.pairwise_map.1 (sorted_ofList entries)
  refine hmaps.eq_of_pairwise (fun a b _ _ hab hba => ?_) (hsorted m) (hsorted m')
  exact absurd (String.lt_trans hab hba) (String.lt_irrefl _)

end ImportChain.KeyMap
