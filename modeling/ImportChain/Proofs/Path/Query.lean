/-
ImportChain.Proofs.Path.Query — a path with a query, normalised as a whole.

The `/` in a query is one of the path for a walk along the text, and what
stands before the first `?` of the query makes one name with the last piece
of the path.

A query whose other pieces are names stays as it is
(`normalizeChars_append_query`). Any other loses something, because from
the first `?` on a normal form has no more `/` than the query has names
(`isName_of_dropWhile_normalizeChars`).
-/
import ImportChain.Proofs.Path.Walk

namespace ImportChain

namespace Path

open Text

/-! ## Walks past names -/

namespace Position

variable {absolute : Bool} {p : Position}

/-- The position further down along some names. -/
def down (p : Position) (names : List (List Char)) : Position :=
  { p with names := names.reverse ++ p.names }

@[simp] theorem pieces_down (p : Position) (names : List (List Char)) :
    (p.down names).pieces = p.pieces ++ names := by
  simp [down, pieces]

theorem step_of_isName (absolute : Bool) (p : Position) {piece : List Char} (h : IsName piece) :
    p.step absolute (Segment.ofText piece) = p.down [piece] := by
  rw [ofText_eq_descend_iff.2 ⟨h, rfl⟩]
  rfl

/-- A walk along names goes down all of them. -/
theorem walk_of_forall_isName (absolute : Bool) {pieces : List (List Char)}
    (h : ∀ piece ∈ pieces, IsName piece) (p : Position) :
    p.walk absolute (pieces.map Segment.ofText) = p.down pieces := by
  induction pieces generalizing p with
  | nil => rfl
  | cons piece pieces ih =>
    rw [List.forall_mem_cons] at h
    show (p.step absolute (Segment.ofText piece)).walk absolute (pieces.map Segment.ofText) = _
    rw [step_of_isName absolute p h.1, ih h.2]
    simp [down]

/-- A position with something to write down is written after the `/` of the
root. -/
theorem text_of_ne_nil (absolute : Bool) {p : Position} (h : joinWith '/' p.pieces ≠ []) :
    p.text absolute = (if absolute then ['/'] else []) ++ joinWith '/' p.pieces := by
  cases absolute <;> simp [text, h]

theorem names_step_of_not_isName (absolute : Bool) (p : Position) {piece : List Char}
    (h : ¬ IsName piece) :
    (p.step absolute (Segment.ofText piece)).names = p.names
      ∨ (p.step absolute (Segment.ofText piece)).names = p.names.tail := by
  cases hs : Segment.ofText piece with
  | stay => exact Or.inl rfl
  | climb => exact Or.inr (by cases hn : p.names <;> cases absolute <;> simp [step, hn])
  | descend name => exact absurd (ofText_eq_descend_iff.1 hs).1 h

/-- A walk leaves at most as many names below as it has gone down, and above
them only names that have been there. -/
theorem exists_names_walk {c : Char} (absolute : Bool) : ∀ (pieces : List (List Char))
    {p : Position} {below above : List (List Char)}, p.names = below ++ above →
      (∀ name ∈ above.tail, c ∉ name) →
        ∃ below' above', (p.walk absolute (pieces.map Segment.ofText)).names = below' ++ above'
          ∧ below'.length ≤ below.length + pieces.countP (IsName ·)
          ∧ ∀ name ∈ above'.tail, c ∉ name
  | [], _, below, above, hp, hc => ⟨below, above, hp, Nat.le_add_right _ _, hc⟩
  | piece :: pieces, p, below, above, hp, hc => by
      by_cases hn : IsName piece
      · have hstep : (p.step absolute (Segment.ofText piece)).names
            = (piece :: below) ++ above := by
          rw [step_of_isName absolute p hn, List.cons_append, ← hp]
          rfl
        obtain ⟨below', above', hw, hlen, hc'⟩ := exists_names_walk absolute pieces hstep hc
        refine ⟨below', above', hw, ?_, hc'⟩
        simp [hn] at hlen ⊢
        omega
      · have hstep : ∃ below₁ above₁,
            (p.step absolute (Segment.ofText piece)).names = below₁ ++ above₁
              ∧ below₁.length ≤ below.length ∧ ∀ name ∈ above₁.tail, c ∉ name := by
          rcases names_step_of_not_isName absolute p hn with hs | hs
          · exact ⟨below, above, hs.trans hp, Nat.le_refl _, hc⟩
          · rw [hp] at hs
            cases below with
            | nil =>
              exact ⟨[], above.tail, hs, Nat.le_refl _, fun name hm =>
                hc name (List.mem_of_mem_tail hm)⟩
            | cons name below => exact ⟨below, above, hs, by simp, hc⟩
        obtain ⟨below₁, above₁, hs, hlen₁, hc₁⟩ := hstep
        obtain ⟨below', above', hw, hlen, hc'⟩ := exists_names_walk absolute pieces hs hc₁
        refine ⟨below', above', hw, ?_, hc'⟩
        simp [hn] at hlen ⊢
        omega

end Position

/-! ## A path with a query -/

section Query

variable {s text first : List Char} {rest : List (List Char)}

/-- What a path holds after its last `/`. -/
def lastPiece (s : List Char) : List Char := (splitOn '/' s).getLastD []

/-- Where the walk along a path is before its last piece. -/
def beforeLast (s : List Char) : Position :=
  Position.start.walk (isAbsolute s) ((splitOn '/' s).dropLast.map Segment.ofText)

/-- The normal form of a path, except that its last piece stays, whatever it
is. -/
def keepingLast (s : List Char) : List Char :=
  (if isAbsolute s then ['/'] else []) ++ joinWith '/' ((beforeLast s).pieces ++ [lastPiece s])

theorem walk_segments (s : List Char) :
    Position.start.walk (isAbsolute s) (segments s)
      = (beforeLast s).step (isAbsolute s) (Segment.ofText (lastPiece s)) := by
  unfold segments Position.walk
  rw [← dropLast_append_getLastD_splitOn '/' s, List.map_append, List.foldl_append]
  rfl

theorem isAbsolute_append (hs : s ≠ []) (t : List Char) : isAbsolute (s ++ t) = isAbsolute s := by
  cases s with
  | nil => exact absurd rfl hs
  | cons c s => rfl

theorem mark_mem_of_splitOn (hq : splitOn '/' ('?' :: text) = first :: rest) : '?' ∈ first := by
  simp only [splitOn, if_neg (show ¬ '?' = '/' by decide)] at hq
  cases ht : splitOn '/' text with
  | nil => exact absurd ht (splitOn_ne_nil '/' text)
  | cons piece others =>
    rw [ht] at hq
    cases hq
    exact List.mem_cons_self

/-- The last piece of a path and the beginning of its query are one name. -/
theorem walk_segments_append (hq : splitOn '/' ('?' :: text) = first :: rest) :
    Position.start.walk (isAbsolute s) (segments (s ++ '?' :: text))
      = ((beforeLast s).down [lastPiece s ++ first]).walk (isAbsolute s)
          (rest.map Segment.ofText) := by
  have hm : '?' ∈ lastPiece s ++ first := List.mem_append_right _ (mark_mem_of_splitOn hq)
  have hname : IsName (lastPiece s ++ first) := by
    refine ⟨?_, ?_, ?_⟩ <;> intro he <;> rw [he] at hm <;> simp at hm
  rw [← Position.step_of_isName (isAbsolute s) _ hname]
  unfold segments Position.walk
  rw [splitOn_append hq, List.map_append, List.foldl_append, List.map_cons, List.foldl_cons]
  rfl

theorem notMem_of_mem_names_beforeLast {c : Char} (hs : c ∉ s) {name : List Char}
    (hn : name ∈ (beforeLast s).names) : c ∉ name := by
  rcases mem_names_walk hn with hn | hn
  · cases hn
  · obtain ⟨piece, hp, he⟩ := List.mem_map.1 hn
    obtain ⟨-, rfl⟩ := ofText_eq_descend_iff.1 he
    exact fun hc => hs (mem_of_mem_splitOn (List.dropLast_subset _ hp) hc)

theorem mark_notMem_keepingLast (hs : '?' ∉ s) : '?' ∉ keepingLast s := by
  intro hm
  rcases List.mem_append.1 hm with hm | hm
  · cases habs : isAbsolute s <;> simp [habs] at hm
  · rcases mem_joinWith hm with hm | ⟨piece, hp, hm⟩
    · cases hm
    · rcases List.mem_append.1 hp with hp | hp
      · rcases List.mem_append.1 hp with hp | hp
        · rw [List.eq_of_mem_replicate hp] at hm
          simp at hm
        · exact notMem_of_mem_names_beforeLast hs (List.mem_reverse.1 hp) hm
      · rw [List.mem_singleton.1 hp] at hm
        exact hs (mem_of_mem_splitOn (getLastD_mem_splitOn '/' s) hm)

/-- A path that ends in a name keeps it. -/
theorem normalizeChars_of_isName_lastPiece (h : IsName (lastPiece s)) :
    normalizeChars s = keepingLast s := by
  have hbody : joinWith '/' ((beforeLast s).down [lastPiece s]).pieces ≠ [] := by
    obtain ⟨c, hc⟩ := List.exists_mem_of_ne_nil _ h.1
    exact List.ne_nil_of_mem (mem_joinWith_of_mem (by simp) hc)
  unfold normalizeChars
  rw [walk_segments, Position.step_of_isName _ _ h, Position.text_of_ne_nil _ hbody,
    Position.pieces_down]
  rfl

/-- A query without detours stays as it is. -/
theorem normalizeChars_append_query (hs : s ≠ [])
    (hn : ∀ piece ∈ (splitOn '/' ('?' :: text)).tail, IsName piece) :
    normalizeChars (s ++ '?' :: text) = keepingLast s ++ '?' :: text := by
  cases hq : splitOn '/' ('?' :: text) with
  | nil => exact absurd hq (splitOn_ne_nil '/' _)
  | cons first rest =>
    rw [hq, List.tail_cons] at hn
    have hbody : joinWith '/' (((beforeLast s).down [lastPiece s ++ first]).down rest).pieces
        = joinWith '/' ((beforeLast s).pieces ++ [lastPiece s]) ++ '?' :: text := by
      rw [Position.pieces_down, Position.pieces_down, List.append_assoc, List.singleton_append,
        joinWith_append_cons, ← hq, joinWith_splitOn]
    unfold normalizeChars keepingLast
    rw [isAbsolute_append hs, walk_segments_append hq, Position.walk_of_forall_isName _ hn,
      Position.text_of_ne_nil _ (by rw [hbody]; simp), hbody, List.append_assoc]

/-- The text of a position from its first `?` on has no more `/` than there
are names below the first that may hold one. -/
theorem count_dropWhile_text_le {absolute : Bool} {p : Position} (hp : p.Plain absolute)
    {below above : List (List Char)} (hn : p.names = below ++ above)
    (hmark : ∀ name ∈ above.tail, '?' ∉ name) :
    ((p.text absolute).dropWhile (· ≠ '?')).count '/' ≤ below.length := by
  have htext : (p.text absolute).dropWhile (· ≠ '?')
      = (joinWith '/' p.pieces).dropWhile (· ≠ '?') := by
    cases absolute with
    | true => rfl
    | false =>
      unfold Position.text
      by_cases hb : joinWith '/' p.pieces = [] <;> simp [hb]
  -- pieces without a `?`, then the name that may hold the first, then those below it
  have hpieces : p.pieces
      = (List.replicate p.climbs ['.', '.'] ++ above.tail.reverse)
        ++ (above.head?.toList ++ below.reverse) := by
    unfold Position.pieces
    rw [hn]
    cases above <;> simp
  have hslash : ∀ piece ∈ above.head?.toList ++ below.reverse, '/' ∉ piece := fun piece hm =>
    hp.notMem_of_mem_pieces (by rw [hpieces]; exact List.mem_append_right _ hm)
  have hbefore : ∀ piece ∈ List.replicate p.climbs ['.', '.'] ++ above.tail.reverse,
      '?' ∉ piece := by
    intro piece hm
    rcases List.mem_append.1 hm with hm | hm
    · rw [List.eq_of_mem_replicate hm]
      decide
    · exact hmark piece (List.mem_reverse.1 hm)
  rw [htext, hpieces]
  refine Nat.le_trans (count_dropWhile_joinWith_le (by decide) hslash hbefore) ?_
  cases above <;> simp

/-- A query is kept only if it has no detours. -/
theorem isName_of_dropWhile_normalizeChars (hs : s ≠ []) (hmark : '?' ∉ s)
    (hkept : (normalizeChars (s ++ '?' :: text)).dropWhile (· ≠ '?') = '?' :: text) :
    ∀ piece ∈ (splitOn '/' ('?' :: text)).tail, IsName piece := by
  cases hq : splitOn '/' ('?' :: text) with
  | nil => exact absurd hq (splitOn_ne_nil '/' _)
  | cons first rest =>
    have hcount : ('?' :: text).count '/' = rest.length := by
      rw [← joinWith_splitOn '/' ('?' :: text), count_joinWith fun piece hp =>
        notMem_of_mem_splitOn hp, hq]
      rfl
    have hwalk := walk_segments_append (s := s) hq
    have hstart : ((beforeLast s).down [lastPiece s ++ first]).names
        = [] ++ (lastPiece s ++ first) :: (beforeLast s).names := rfl
    obtain ⟨below, above, hnames, hlength, habove⟩ :=
      Position.exists_names_walk (isAbsolute s) rest hstart
        fun name hn => notMem_of_mem_names_beforeLast hmark hn
    have hplain := Position.plain_walk (s ++ '?' :: text)
    rw [isAbsolute_append hs, hwalk] at hplain
    have hle := count_dropWhile_text_le hplain hnames habove
    unfold normalizeChars at hkept
    rw [isAbsolute_append hs, hwalk] at hkept
    rw [hkept, hcount] at hle
    -- as many of the pieces are names as there are pieces
    have hall : rest.countP (IsName ·) = rest.length :=
      Nat.le_antisymm List.countP_le_length (by simp at hlength; omega)
    intro piece hp
    simpa using List.countP_eq_length.1 hall piece hp

end Query

/-! ## Relative requests with a query -/

theorem exists_of_isRelative {p : String} (h : isRelative p = true) :
    ∃ up rest, p.toList = up ++ '/' :: rest ∧ (up = ['.'] ∨ up = ['.', '.']) := by
  rcases Bool.or_eq_true_iff.1 h with h | h
  · obtain ⟨rest, hr⟩ := startsWith_iff.1 h
    exact ⟨['.'], rest, hr, Or.inl rfl⟩
  · obtain ⟨rest, hr⟩ := startsWith_iff.1 h
    exact ⟨['.', '.'], rest, hr, Or.inr rfl⟩

/-- A query does not make a path relative. -/
theorem isRelative_append_query (p text : String) :
    isRelative (p ++ ("?" ++ text)) = isRelative p := by
  unfold isRelative
  rw [String.toList_append, String.toList_append]
  show (startsWith ['.', '/'] (p.toList ++ '?' :: text.toList)
    || startsWith ['.', '.', '/'] (p.toList ++ '?' :: text.toList)) = _
  rw [startsWith_append_cons (by decide), startsWith_append_cons (by decide)]

/-- A relative path is attached with whatever follows it. -/
theorem attach_append (base : List Char) {p : String} (h : isRelative p = true) (t : List Char) :
    attach base (p.toList ++ t) = attach base p.toList ++ t := by
  obtain ⟨up, rest, hp, hup⟩ := exists_of_isRelative h
  have habs : isAbsolute p.toList = false := by
    rw [hp]
    rcases hup with rfl | rfl <;> rfl
  have habst : isAbsolute (p.toList ++ t) = false := by
    rw [isAbsolute_append (by rw [hp]; simp), habs]
  unfold attach
  by_cases hb : base = [] <;> simp [hb, habs, habst]

theorem attach_ne_nil (base : List Char) {p : String} (h : isRelative p = true) :
    attach base p.toList ≠ [] := by
  obtain ⟨up, rest, hp, -⟩ := exists_of_isRelative h
  unfold attach
  split <;> simp [hp]

theorem lastPiece_attach (base request : List Char) :
    lastPiece (attach base request) = lastPiece request := by
  unfold attach
  split
  · rfl
  · exact getLastD_splitOn_append_cons '/' _ _

end Path

end ImportChain
