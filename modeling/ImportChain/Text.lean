/-
ImportChain.Text — cutting and joining text at a separator.

Requests, paths and identities are flat text with one-character
separators. The functions here work on `List Char`, by recursion on the
list, so that what they do to a printed text follows by induction.

`splitOn_ne_nil`: a split has at least one piece. `joinWith_splitOn`:
joining the pieces with the separator gives the text back.
`cutAt_eq_some_iff`: a cut is at the first occurrence.
-/

namespace ImportChain.Text

/-! ## Splitting -/

/-- The pieces of `s` between the occurrences of `sep`; one more piece than
there are separators. -/
def splitOn (sep : Char) : List Char → List (List Char)
  | [] => [[]]
  | c :: s =>
    if c = sep then [] :: splitOn sep s
    else
      match splitOn sep s with
      | [] => [[c]]
      | piece :: rest => (c :: piece) :: rest

/-- The pieces with `sep` between each two of them. -/
def joinWith (sep : Char) : List (List Char) → List Char
  | [] => []
  | [piece] => piece
  | piece :: rest => piece ++ sep :: joinWith sep rest

theorem splitOn_ne_nil (sep : Char) (s : List Char) : splitOn sep s ≠ [] := by
  cases s with
  | nil => simp [splitOn]
  | cons c s =>
    simp only [splitOn]
    split
    · simp
    · split <;> simp

theorem joinWith_cons_of_ne_nil (sep : Char) (piece : List Char) {rest : List (List Char)}
    (h : rest ≠ []) : joinWith sep (piece :: rest) = piece ++ sep :: joinWith sep rest := by
  cases rest with
  | nil => exact absurd rfl h
  | cons _ _ => rfl

/-- Joining undoes splitting. -/
theorem joinWith_splitOn (sep : Char) (s : List Char) : joinWith sep (splitOn sep s) = s := by
  induction s with
  | nil => rfl
  | cons c s ih =>
    have hne := splitOn_ne_nil sep s
    simp only [splitOn]
    split
    · next h => rw [joinWith_cons_of_ne_nil _ _ hne, ih, h]; rfl
    · cases hs : splitOn sep s with
      | nil => exact absurd hs hne
      | cons piece rest =>
        rw [hs] at ih
        cases rest with
        | nil => simp only [joinWith] at ih ⊢; rw [ih]
        | cons r rs =>
          simp only [joinWith] at ih ⊢
          rw [List.cons_append, ih]

/-- No piece of a split holds the separator. -/
theorem notMem_of_mem_splitOn {sep : Char} {s piece : List Char}
    (h : piece ∈ splitOn sep s) : sep ∉ piece := by
  induction s generalizing piece with
  | nil => simp_all [splitOn]
  | cons c s ih =>
    simp only [splitOn] at h
    split at h
    · rcases List.mem_cons.1 h with rfl | h
      · simp
      · exact ih h
    · next hc =>
      cases hs : splitOn sep s with
      | nil => exact absurd hs (splitOn_ne_nil sep s)
      | cons first rest =>
        rw [hs] at h
        simp only [List.mem_cons] at h
        rcases h with rfl | h
        · have := @ih first (by rw [hs]; simp)
          simp only [List.mem_cons, not_or]
          exact ⟨fun e => hc e.symm, this⟩
        · exact ih (by rw [hs]; exact List.mem_cons_of_mem _ h)

/-! ## Cutting at the first occurrence -/

/-- What stands before and after the first `sep`, if there is one. -/
def cutAt (sep : Char) : List Char → Option (List Char × List Char)
  | [] => none
  | c :: s => if c = sep then some ([], s) else (cutAt sep s).map fun (a, b) => (c :: a, b)

theorem cutAt_eq_some_iff {sep : Char} {s a b : List Char} :
    cutAt sep s = some (a, b) ↔ s = a ++ sep :: b ∧ sep ∉ a := by
  induction s generalizing a with
  | nil => simp [cutAt]
  | cons c s ih =>
    simp only [cutAt]
    split
    · next h =>
      subst h
      cases a with
      | nil => simp [eq_comm]
      | cons x a => simp; rintro rfl; simp
    · next h =>
      cases a with
      | nil =>
        simp only [Option.map_eq_some_iff, Prod.mk.injEq, List.nil_append, List.cons.injEq]
        constructor
        · rintro ⟨_, _, h', _⟩; cases h'
        · rintro ⟨⟨h', _⟩, _⟩; exact absurd h' h
      | cons x a =>
        simp only [Option.map_eq_some_iff, Prod.mk.injEq, Prod.exists, List.cons.injEq,
          List.cons_append, List.mem_cons, not_or]
        constructor
        · rintro ⟨a', b', h', ⟨rfl, rfl⟩, rfl⟩
          have := ih.1 h'
          exact ⟨⟨rfl, this.1⟩, fun e => h e.symm, this.2⟩
        · rintro ⟨⟨rfl, h'⟩, _, h''⟩
          exact ⟨a, b, ih.2 ⟨h', h''⟩, ⟨rfl, rfl⟩, rfl⟩

theorem cutAt_eq_none_iff {sep : Char} {s : List Char} : cutAt sep s = none ↔ sep ∉ s := by
  induction s with
  | nil => simp [cutAt]
  | cons c s ih =>
    simp only [cutAt]
    split
    · next h => simp [h]
    · next h =>
      simp only [Option.map_eq_none_iff, ih, List.mem_cons, not_or]
      exact ⟨fun h' => ⟨fun e => h e.symm, h'⟩, fun h' => h'.2⟩

/-! ## Beginnings and ends -/

/-- The rest of `s` after `start`, if `s` begins with `start`. -/
def dropStart? (start s : List Char) : Option (List Char) :=
  match start, s with
  | [], s => some s
  | _ :: _, [] => none
  | a :: start, b :: s => if a = b then dropStart? start s else none

theorem dropStart?_eq_some_iff {start s rest : List Char} :
    dropStart? start s = some rest ↔ s = start ++ rest := by
  fun_induction dropStart? start s with
  | case1 => simp [eq_comm]
  | case2 => simp
  | case3 start b s ih => simp [ih]
  | case4 a start b s h =>
    simp only [List.cons_append, List.cons.injEq, reduceCtorEq, false_iff, not_and]
    exact fun e => absurd e.symm h

/-- Whether `s` begins with `start`. -/
def startsWith (start s : List Char) : Bool := (dropStart? start s).isSome

theorem startsWith_iff {start s : List Char} :
    startsWith start s = true ↔ ∃ rest, s = start ++ rest := by
  simp [startsWith, Option.isSome_iff_exists, dropStart?_eq_some_iff]

/-- `s` without the copies of `c` at its end. -/
def dropEnd (c : Char) : List Char → List Char
  | [] => []
  | a :: s =>
    match dropEnd c s with
    | [] => if a = c then [] else [a]
    | rest => a :: rest

end ImportChain.Text
