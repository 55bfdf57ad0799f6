/-
ImportChain.Proofs.Path.Joining — where joined paths lead.

`arrive_join` is the law of joining: from every directory a joined path
leads to where its request leads from where its base leads. Joined paths
are normal, so that they are equal if they lead alike, and `join_assoc`
has nothing to say of slashes, `..` or empty bases any more.
-/
import ImportChain.Proofs.Path.Walk

namespace ImportChain

namespace Path

open Text

/-! ## Walking along pieces -/

/-- Where the pieces of a path lead, whatever it begins with. -/
def follow (dir : Directory) (path : List Char) : Directory := (splitOn '/' path).foldl move dir

theorem arrive_eq_follow (dir : Directory) (path : List Char) :
    arrive dir path = follow (if isAbsolute path then [] else dir) path := rfl

theorem follow_append_slash (dir : Directory) (path rest : List Char) :
    follow dir (path ++ '/' :: rest) = follow (follow dir path) rest := by
  unfold follow
  rw [splitOn_append_sep, List.foldl_append]

/-- Slashes at the end lead nowhere. -/
theorem follow_append_slashes (dir : Directory) (path : List Char) (n : Nat) :
    follow dir (path ++ List.replicate n '/') = follow dir path := by
  induction n with
  | zero => simp
  | succ n ih =>
    rw [List.replicate_succ', ← List.append_assoc, follow_append_slash, ih]
    rfl

theorem follow_dropEnd (dir : Directory) (path : List Char) :
    follow dir (dropEnd '/' path) = follow dir path := by
  obtain ⟨n, hn⟩ := dropEnd_append_replicate '/' path
  have h := follow_append_slashes dir (dropEnd '/' path) n
  rw [← hn] at h
  exact h.symm

/-! ## Joining -/

/-- An attached request starts at the root if it does itself, or else if its
base does. -/
theorem isAbsolute_attach_of_relative {base request : List Char} (hr : isAbsolute request = false)
    (hb : base ≠ []) : isAbsolute (attach base request) = isAbsolute base := by
  cases habs : isAbsolute base with
  | true => exact isAbsolute_attach habs request
  | false =>
    unfold attach
    rw [if_neg (by simp [hr, hb])]
    obtain ⟨n, hn⟩ := dropEnd_append_replicate '/' base
    cases hd : dropEnd '/' base with
    | nil =>
      -- otherwise the base would be slashes only
      rw [hd, List.nil_append] at hn
      cases n with
      | zero => exact absurd hn hb
      | succ n => simp [hn, List.replicate_succ, isAbsolute] at habs
    | cons c rest =>
      rw [hd] at hn
      rw [hn] at habs
      exact habs

/-- A request attached to a base leads to where it leads from there. -/
theorem arrive_attach (dir : Directory) (base request : List Char) :
    arrive dir (attach base request) = arrive (arrive dir base) request := by
  cases hr : isAbsolute request with
  | true =>
    have ha : attach base request = request := by
      unfold attach
      rw [if_pos (Or.inl hr)]
    simp only [ha, arrive_eq_follow, hr, if_true]
  | false =>
    by_cases hb : base = []
    · subst hb
      unfold attach
      rw [if_pos (Or.inr rfl)]
      rfl
    · have hattach : attach base request = dropEnd '/' base ++ '/' :: request := by
        unfold attach
        rw [if_neg (by simp [hr, hb])]
      rw [arrive_eq_follow, isAbsolute_attach_of_relative hr hb, hattach, follow_append_slash,
        follow_dropEnd]
      simp [arrive_eq_follow, hr]

theorem toList_join (base request : String) :
    (join base request).toList = normalizeChars (attach base.toList request.toList) :=
  String.toList_ofList

theorem toList_normalize (path : String) :
    (normalize path).toList = normalizeChars path.toList :=
  String.toList_ofList

/-- From every directory a joined path leads to where the request leads from
where the base leads. -/
theorem arrive_join (dir : Directory) (base request : String) :
    arrive dir (join base request).toList = arrive (arrive dir base.toList) request.toList := by
  rw [toList_join, arrive_normalizeChars, arrive_attach]

theorem arrive_normalize (dir : Directory) (path : String) :
    arrive dir (normalize path).toList = arrive dir path.toList := by
  rw [toList_normalize, arrive_normalizeChars]

/-- Joined paths that lead alike are equal. -/
theorem join_eq_of_arrive_eq {base request base' request' : String}
    (h : ∀ dir, arrive (arrive dir base.toList) request.toList
      = arrive (arrive dir base'.toList) request'.toList) :
    join base request = join base' request' := by
  refine String.toList_inj.1 (eq_of_arrive_eq ?_ ?_ ?_)
  · rw [toList_join]
    exact isNormal_normalizeChars _
  · rw [toList_join]
    exact isNormal_normalizeChars _
  · intro dir
    rw [arrive_join, arrive_join]
    exact h dir

/-- Joining is associative, and neither the base nor the request counts for
more than its normal form. What a joined path stands for is where its
request leads from where its base leads. -/
theorem join_assoc (a b c : String) :
    join (join a b) c = join a (join b c)
    ∧ join (normalize a) b = join a b
    ∧ join a (normalize b) = join a b
    ∧ ∀ dir, arrive dir (join a b).toList = arrive (arrive dir a.toList) b.toList := by
  refine ⟨?_, ?_, ?_, ?_⟩
  · apply join_eq_of_arrive_eq
    intro dir
    rw [arrive_join, arrive_join]
  · apply join_eq_of_arrive_eq
    intro dir
    rw [arrive_normalize]
  · apply join_eq_of_arrive_eq
    intro dir
    rw [arrive_normalize]
  · intro dir
    exact arrive_join dir a b

end Path

end ImportChain
