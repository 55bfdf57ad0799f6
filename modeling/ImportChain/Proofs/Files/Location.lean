/-
ImportChain.Proofs.Files.Location — the way up from a location.

`ancestors` lists a location and everything above it at once, from the
pieces of one text. `ancestors_eq` says that this is the way up step by
step: after a location come its parent and what is above that, read from
the text of the parent.
-/
import ImportChain.Files.Location
import ImportChain.Proofs.Text.Runs

namespace ImportChain.Location

open Text

variable {absolute : Bool} {location : List Char} {ps qs : List (List Char)}

/-! ## Pieces, the last one first -/

/-- Idle pieces at the end do not count for what is above. -/
theorem above_trimmed : ∀ ps : List (List Char),
    above absolute (trimmed absolute ps) = above absolute ps
  | [] => rfl
  | piece :: rest => by
      rw [trimmed, above]
      split
      · exact above_trimmed rest
      · next h => rw [above, if_neg h]

theorem trimmed_suffix (absolute : Bool) : ∀ ps : List (List Char), trimmed absolute ps <:+ ps
  | [] => List.suffix_refl []
  | piece :: rest => by
      rw [trimmed]
      split
      · exact (trimmed_suffix absolute rest).trans (List.suffix_cons piece rest)
      · exact List.suffix_refl _

/-- Pieces that a location can have: without a slash, and with an empty one at
the beginning only after the root. -/
structure Proper (absolute : Bool) (ps : List (List Char)) : Prop where
  slash : ∀ piece ∈ ps, '/' ∉ piece
  first : absolute = false → ps.getLast? ≠ some []

theorem Proper.of_suffix (h : Proper absolute ps) (hs : qs <:+ ps) : Proper absolute qs := by
  obtain ⟨later, rfl⟩ := hs
  refine ⟨fun piece hp => h.slash piece (List.mem_append_right _ hp), fun habsolute hlast => ?_⟩
  refine h.first habsolute ?_
  rw [List.getLast?_append, hlast, Option.some_or]

theorem pieces_of_not_isAbsolute (h : Path.isAbsolute location = false) :
    pieces location = splitOn '/' location := by
  unfold pieces
  split
  · simp [Path.isAbsolute] at h
  · rfl

theorem proper_pieces (h : location ≠ []) :
    Proper (Path.isAbsolute location) (pieces location).reverse := by
  constructor
  · intro piece hp
    rw [List.mem_reverse] at hp
    unfold pieces at hp
    split at hp <;> exact notMem_of_mem_splitOn hp
  · intro habsolute
    rw [pieces_of_not_isAbsolute habsolute, List.getLast?_reverse]
    cases location with
    | nil => exact absurd rfl h
    | cons c rest =>
      have hc : c ≠ '/' := by simpa [Path.isAbsolute] using habsolute
      rw [splitOn, if_neg hc]
      cases splitOn '/' rest <;> simp

/-! ## Pieces of a text that was made of pieces -/

theorem isAbsolute_ofPieces (h : Proper absolute qs) :
    Path.isAbsolute (ofPieces absolute qs.reverse) = absolute := by
  cases absolute with
  | true => rfl
  | false =>
    have hfirst := h.first rfl
    rw [← List.head?_reverse] at hfirst
    unfold ofPieces
    rw [if_neg (by simp)]
    cases hqs : qs.reverse with
    | nil => rfl
    | cons first rest =>
      have hslash : '/' ∉ first := h.slash first (by rw [← List.mem_reverse, hqs]; simp)
      cases first with
      | nil => exact absurd (by rw [hqs]; rfl) hfirst
      | cons c first =>
        have hc : c ≠ '/' := fun e => hslash (by rw [e]; simp)
        cases rest <;> simp [joinWith, Path.isAbsolute, hc]

/-- What is above a location is read again from its text. -/
theorem above_pieces_ofPieces (h : Proper absolute qs) :
    above absolute (pieces (ofPieces absolute qs.reverse)).reverse = above absolute qs := by
  have hpieces : pieces (ofPieces absolute qs.reverse) = splitOn '/' (joinWith '/' qs.reverse) := by
    cases absolute with
    | true => rfl
    | false => exact pieces_of_not_isAbsolute (isAbsolute_ofPieces h)
  rw [hpieces]
  by_cases hqs : qs = []
  · -- The text has one piece, which is empty, where there was none.
    rw [hqs]
    cases absolute <;> rfl
  · rw [splitOn_joinWith (by simpa using hqs) fun piece hp => h.slash piece (by simpa using hp),
      List.reverse_reverse]

/-! ## The way up -/

/-- What is above a location has a first part with the rest above it, if there
is anything. -/
theorem above_cases (absolute : Bool) : ∀ ps : List (List Char),
    above absolute ps = [] ∨ ∃ qs, qs <:+ ps ∧ above absolute ps = qs :: above absolute qs
  | [] => .inl rfl
  | piece :: rest => by
      rw [above]
      split
      · rcases above_cases absolute rest with h | ⟨qs, hs, h⟩
        · exact .inl h
        · exact .inr ⟨qs, hs.trans (List.suffix_cons piece rest), h⟩
      · have hs := (trimmed_suffix absolute rest).trans (List.suffix_cons piece rest)
        exact .inr ⟨trimmed absolute rest, hs, by rw [above_trimmed]⟩

/-- Above a location are its parent and what is above its parent. -/
theorem ancestors_eq (location : String) :
    ancestors location = location :: (parent? location).elim [] ancestors := by
  by_cases hempty : location.toList = []
  · rw [String.toList_eq_nil_iff.1 hempty]
    rfl
  · have hproper := proper_pieces hempty
    rcases above_cases (Path.isAbsolute location.toList) (pieces location.toList).reverse with
      h | ⟨qs, hs, h⟩
    · have hparents : parents location = [] := by simp only [parents, h, List.map_nil]
      simp only [ancestors, parent?, hparents, List.head?_nil, Option.elim_none]
    · have hqs := hproper.of_suffix hs
      simp only [ancestors, parent?, parents, h, List.map_cons, List.head?_cons, Option.elim_some,
        String.toList_ofList, isAbsolute_ofPieces hqs, above_pieces_ofPieces hqs]

end ImportChain.Location
