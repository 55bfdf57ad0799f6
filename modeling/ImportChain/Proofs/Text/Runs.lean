/-
ImportChain.Proofs.Text.Runs — runs of a separator taken for one.

To replace every run of a separator before a text is cut comes to the same
as to cut first and leave out the empty pieces, as long as no separator
stands at the front (`splitOn_collapse`). The empty piece at the end stays
either way.
-/
import ImportChain.Proofs.Text.Pieces
import Mathlib.Data.List.Basic

namespace ImportChain.Text

/-! ## Pieces -/

theorem splitOn_eq (sep : Char) : ∀ s : List Char, splitOn sep s = s.splitOn sep
  | [] => rfl
  | c :: s => by
      unfold List.splitOn
      rw [List.splitOnP_cons_eq_if_modifyHead, splitOn, splitOn_eq sep s]
      by_cases h : c = sep
      · simp [h, List.splitOn]
      · simp only [h, if_false, beq_eq_false_iff_ne.2 h, Bool.false_eq_true]
        have hne := splitOn_ne_nil sep s
        rw [splitOn_eq sep s] at hne
        cases hs : s.splitOn sep with
        | nil => exact absurd hs hne
        | cons piece rest =>
          unfold List.splitOn at hs
          rw [hs]
          rfl

theorem linked_eq_joinWith (sep : Char) (last : List Char) : ∀ pieces : List (List Char),
    linked sep pieces last = joinWith sep (pieces ++ [last])
  | [] => rfl
  | piece :: pieces => by
      rw [linked_cons, linked_eq_joinWith sep last pieces, List.cons_append,
        joinWith_cons_of_ne_nil _ _ (by simp)]

/-- A text is its last piece after the others, each with a separator. -/
theorem linked_splitOn (sep : Char) (s : List Char) :
    linked sep (splitOn sep s).dropLast ((splitOn sep s).getLastD []) = s := by
  rw [linked_eq_joinWith, dropLast_append_getLastD_splitOn, joinWith_splitOn]

/-- Texts that do not hold the separator are cut where they were joined. -/
theorem splitOn_joinWith {sep : Char} {pieces : List (List Char)} (hne : pieces ≠ [])
    (h : ∀ piece ∈ pieces, sep ∉ piece) : splitOn sep (joinWith sep pieces) = pieces := by
  have hlast : sep ∉ pieces.getLast hne := h _ (List.getLast_mem hne)
  have hrest : ∀ piece ∈ pieces.dropLast, sep ∉ piece := fun piece hp =>
    h piece (List.dropLast_subset _ hp)
  rw [← List.dropLast_concat_getLast hne, ← linked_eq_joinWith, splitOn_linked hlast hrest]

/-! ## Runs -/

/-- A text without every `c` that has another one right after it: of each run
of them one is left. -/
def collapse (c : Char) : List Char → List Char
  | [] => []
  | a :: s => if a = c ∧ s.head? = some c then collapse c s else a :: collapse c s

example : collapse '!' "a!!!b!c!!".toList = "a!b!c!".toList := by decide

section Collapse

variable {c : Char}

/-- Text before the first `c` stays. -/
theorem collapse_append {piece : List Char} (h : c ∉ piece) (s : List Char) :
    collapse c (piece ++ s) = piece ++ collapse c s := by
  induction piece with
  | nil => rfl
  | cons a piece ih =>
    simp only [List.mem_cons, not_or] at h
    rw [List.cons_append, collapse, if_neg fun e => h.1 e.1.symm, ih h.2, List.cons_append]

theorem collapse_of_notMem {s : List Char} (h : c ∉ s) : collapse c s = s := by
  have hs := collapse_append h []
  rwa [List.append_nil, collapse, List.append_nil] at hs

/-- After a `c`, pieces that are empty leave nothing behind. -/
theorem collapse_cons_linked {last : List Char} (hl : c ∉ last) :
    ∀ {pieces : List (List Char)}, (∀ piece ∈ pieces, c ∉ piece) →
      collapse c (c :: linked c pieces last) = c :: linked c (pieces.filter (· ≠ [])) last
  | [], _ => by
      rw [linked_nil, collapse, if_neg fun e => hl (List.mem_of_mem_head? e.2),
        collapse_of_notMem hl]
      rfl
  | piece :: pieces, h => by
      rw [List.forall_mem_cons] at h
      have ih := collapse_cons_linked hl h.2
      rw [linked_cons]
      cases piece with
      | nil => rw [List.nil_append, collapse, if_pos ⟨rfl, rfl⟩, ih]; rfl
      | cons a piece =>
        have ha : a ≠ c := fun e => h.1 (by rw [e]; exact List.mem_cons_self)
        rw [collapse, if_neg fun e => ha (Option.some.inj e.2), collapse_append h.1, ih]
        rfl

/-- Pieces that are empty leave nothing behind, unless one comes first. -/
theorem collapse_linked {last : List Char} (hl : c ∉ last) {pieces : List (List Char)}
    (hp : ∀ piece ∈ pieces, c ∉ piece) (h : (linked c pieces last).head? ≠ some c) :
    collapse c (linked c pieces last) = linked c (pieces.filter (· ≠ [])) last := by
  cases pieces with
  | nil => exact collapse_of_notMem hl
  | cons piece pieces =>
    rw [List.forall_mem_cons] at hp
    cases piece with
    | nil => exact absurd rfl h
    | cons a piece =>
      rw [linked_cons, collapse_append hp.1, collapse_cons_linked hl hp.2]
      rfl

/-- A text that does not begin with `c` is cut, once runs are replaced, into
its last piece and those before it that are not empty. -/
theorem splitOn_collapse {s : List Char} (h : s.head? ≠ some c) :
    (collapse c s).splitOn c
      = (splitOn c s).dropLast.filter (· ≠ []) ++ [(splitOn c s).getLastD []] := by
  have hlast : c ∉ (splitOn c s).getLastD [] := notMem_of_mem_splitOn (getLastD_mem_splitOn c s)
  have hpieces : ∀ piece ∈ (splitOn c s).dropLast, c ∉ piece := fun piece hp =>
    notMem_of_mem_splitOn (List.dropLast_subset _ hp)
  have hs := linked_splitOn c s
  have hcollapse := collapse_linked hlast hpieces (hs.symm ▸ h)
  rw [hs] at hcollapse
  rw [← splitOn_eq, hcollapse]
  exact splitOn_linked hlast fun piece hp => hpieces piece (List.mem_filter.1 hp).1

end Collapse

end ImportChain.Text
