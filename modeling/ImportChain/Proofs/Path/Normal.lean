/-
ImportChain.Proofs.Path.Normal — what normal paths are made of.

`mem_normalizeChars`: normalising invents no character but `/` and `.`.
`exists_join_eq_slash_cons`: a request seen from an absolute directory is
absolute, so that seeing it from there once more changes nothing.
-/
import ImportChain.Path
import ImportChain.Proofs.Text.Pieces

namespace ImportChain

/-! ## Walks -/

namespace Path

open Text

/-- A name that a walk has gone down is one of its start or of a step. -/
theorem mem_names_walk {absolute : Bool} {name : List Char} :
    ∀ {steps : List Segment} {p : Position}, name ∈ (p.walk absolute steps).names →
      name ∈ p.names ∨ Segment.descend name ∈ steps
  | [], p, h => Or.inl h
  | step :: steps, p, h => by
      have h' : name ∈ ((p.step absolute step).walk absolute steps).names := h
      rcases mem_names_walk h' with h' | h'
      · cases step with
        | stay => exact Or.inl h'
        | climb =>
          refine Or.inl ?_
          unfold Position.step at h'
          cases hn : p.names with
          | nil => cases absolute <;> simp [hn] at h'
          | cons first rest =>
            simp only [hn] at h'
            exact List.mem_cons_of_mem _ h'
        | descend entry =>
          rcases List.mem_cons.1 h' with rfl | h'
          · exact Or.inr (by simp)
          · exact Or.inl h'
      · exact Or.inr (List.mem_cons_of_mem _ h')

theorem mem_of_descend_mem_segments {path name : List Char} {c : Char}
    (hs : Segment.descend name ∈ segments path) (hc : c ∈ name) : c ∈ path := by
  obtain ⟨piece, hp, he⟩ := List.mem_map.1 hs
  unfold Segment.ofText at he
  split at he
  · cases he
  · split at he
    · cases he
    · cases he
      exact mem_of_mem_splitOn hp hc

/-! ## Normal forms -/

/-- A normal form holds nothing but `/`, `.` and characters of the path. -/
theorem mem_normalizeChars {path : List Char} {c : Char} (h : c ∈ normalizeChars path) :
    c = '/' ∨ c = '.' ∨ c ∈ path := by
  have hbody : ∀ p : Position, c ∈ joinWith '/' p.pieces →
      c = '/' ∨ c = '.' ∨ ∃ name ∈ p.names, c ∈ name := by
    intro p hc
    rcases mem_joinWith hc with hc | ⟨piece, hp, hc⟩
    · exact Or.inl hc
    · rcases List.mem_append.1 hp with hp | hp
      · have hd : piece = ['.', '.'] := List.eq_of_mem_replicate hp
        subst hd
        simp only [List.mem_cons, List.not_mem_nil, or_false, or_self] at hc
        exact Or.inr (Or.inl hc)
      · exact Or.inr (Or.inr ⟨piece, List.mem_reverse.1 hp, hc⟩)
  have hwalk : c ∈ joinWith '/' (Position.start.walk (isAbsolute path) (segments path)).pieces →
      c = '/' ∨ c = '.' ∨ c ∈ path := by
    intro hc
    rcases hbody _ hc with hc | hc | ⟨name, hn, hc⟩
    · exact Or.inl hc
    · exact Or.inr (Or.inl hc)
    · rcases mem_names_walk hn with hn | hn
      · cases hn
      · exact Or.inr (Or.inr (mem_of_descend_mem_segments hn hc))
  unfold normalizeChars Position.text at h
  simp only at h
  split at h
  · rcases List.mem_cons.1 h with h | h
    · exact Or.inl h
    · exact hwalk h
  · split at h
    · exact Or.inr (Or.inl (List.mem_singleton.1 h))
    · exact hwalk h

/-- The normal form of an absolute path is absolute. -/
theorem exists_normalizeChars_eq_slash_cons {path : List Char} (h : isAbsolute path = true) :
    ∃ rest, normalizeChars path = '/' :: rest := by
  unfold normalizeChars Position.text
  rw [h]
  exact ⟨_, rfl⟩

/-! ## Joining -/

/-- What is dropped at the end of a text are copies of one character. -/
theorem dropEnd_append_replicate (c : Char) :
    ∀ s : List Char, ∃ n, s = dropEnd c s ++ List.replicate n c
  | [] => ⟨0, rfl⟩
  | a :: s => by
      obtain ⟨n, hn⟩ := dropEnd_append_replicate c s
      unfold dropEnd
      cases hd : dropEnd c s with
      | nil =>
        rw [hd, List.nil_append] at hn
        by_cases ha : a = c
        · exact ⟨n + 1, by simp [ha, hn, List.replicate_succ]⟩
        · exact ⟨n, by simp [ha, hn]⟩
      | cons b rest =>
        rw [hd] at hn
        exact ⟨n, by rw [List.cons_append, ← hn]⟩

theorem isAbsolute_attach {base : List Char} (h : isAbsolute base = true) (request : List Char) :
    isAbsolute (attach base request) = true := by
  unfold attach
  split
  · next hr =>
    rcases hr with hr | hr
    · exact hr
    · rw [hr] at h
      cases h
  · obtain ⟨n, hn⟩ := dropEnd_append_replicate '/' base
    cases hd : dropEnd '/' base with
    | nil => rfl
    | cons a rest =>
      rw [hd] at hn
      rw [hn] at h
      exact h

theorem mem_attach {base request : List Char} {c : Char} (h : c ∈ attach base request) :
    c = '/' ∨ c ∈ base ∨ c ∈ request := by
  unfold attach at h
  split at h
  · exact Or.inr (Or.inr h)
  · rcases List.mem_append.1 h with h | h
    · obtain ⟨n, hn⟩ := dropEnd_append_replicate '/' base
      refine Or.inr (Or.inl ?_)
      rw [hn]
      exact List.mem_append_left _ h
    · rcases List.mem_cons.1 h with h | h
      · exact Or.inl h
      · exact Or.inr (Or.inr h)

/-- A request seen from an absolute directory is absolute. -/
theorem exists_join_eq_slash_cons {base : String} (h : isAbsolute base.toList = true)
    (request : String) : ∃ rest, (join base request).toList = '/' :: rest := by
  unfold join
  rw [String.toList_ofList]
  exact exists_normalizeChars_eq_slash_cons (isAbsolute_attach h _)

theorem mem_join {base request : String} {c : Char} (h : c ∈ (join base request).toList) :
    c = '/' ∨ c = '.' ∨ c ∈ base.toList ∨ c ∈ request.toList := by
  unfold join at h
  rw [String.toList_ofList] at h
  rcases mem_normalizeChars h with h | h | h
  · exact Or.inl h
  · exact Or.inr (Or.inl h)
  · rcases mem_attach h with h | h
    · exact Or.inl h
    · exact Or.inr (Or.inr h)

/-- An absolute request is not relative. -/
theorem isRelative_of_slash_cons {request : String} {rest : List Char}
    (h : request.toList = '/' :: rest) : isRelative request = false := by
  unfold isRelative
  rw [h]
  rfl

end Path

end ImportChain
