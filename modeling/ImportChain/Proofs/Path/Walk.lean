/-
ImportChain.Proofs.Path.Walk — where a path leads, and its normal form.

`arrive` walks a path from a directory, piece by piece; `IsNormal` says
what the paths look like that lead nowhere by a detour. A normal path is
told by where it leads (`eq_of_arrive_eq`), because it is the text of a
`Position` and different positions reach different directories from one
that is deep enough.

`normalForm_of_normalize` is the main statement: normalising keeps where a
path leads and gives the one normal path that leads there.
-/
import ImportChain.Proofs.Path.Normal
import ImportChain.Proofs.Text.Runs

namespace ImportChain

namespace Path

open Text

/-! ## Walking from a directory -/

/-- A directory by the names that lead to it from the root, the deepest
first. -/
abbrev Directory := List (List Char)

/-- Where a piece of a path leads from a directory. Above the root there is
nothing. -/
def move (dir : Directory) (piece : List Char) : Directory :=
  if piece = [] ∨ piece = ['.'] then dir
  else if piece = ['.', '.'] then dir.tail
  else piece :: dir

/-- Where a path leads from a directory. -/
def arrive (dir : Directory) (path : List Char) : Directory :=
  (splitOn '/' path).foldl move (if isAbsolute path then [] else dir)

namespace Position

variable {absolute : Bool} {p p' : Position} {dir : Directory}

/-- The directory at a position of a walk that started in a directory. -/
def reached (p : Position) (dir : Directory) : Directory := p.names ++ dir.drop p.climbs

/-- A step reaches the directory that the piece leads to. -/
theorem reached_step (h : absolute = true → dir = []) (piece : List Char) :
    (p.step absolute (Segment.ofText piece)).reached dir = move (p.reached dir) piece := by
  obtain ⟨climbs, names⟩ := p
  unfold Segment.ofText move
  by_cases hstay : piece = [] ∨ piece = ['.']
  · rw [if_pos hstay, if_pos hstay]
    rfl
  rw [if_neg hstay, if_neg hstay]
  by_cases hclimb : piece = ['.', '.']
  · rw [if_pos hclimb, if_pos hclimb]
    cases names with
    | cons first rest => rfl
    | nil =>
      cases absolute with
      | true =>
        rw [h rfl]
        simp [step, reached]
      | false => simp [step, reached, List.tail_drop]
  · rw [if_neg hclimb, if_neg hclimb]
    rfl

theorem reached_walk (h : absolute = true → dir = []) (pieces : List (List Char)) :
    (p.walk absolute (pieces.map Segment.ofText)).reached dir
      = pieces.foldl move (p.reached dir) := by
  induction pieces generalizing p with
  | nil => rfl
  | cons piece pieces ih =>
    rw [List.foldl_cons, ← reached_step h]
    exact ih

end Position

/-- A path leads to what the walk along it reaches. -/
theorem arrive_eq_reached (dir : Directory) (path : List Char) :
    arrive dir path
      = (Position.start.walk (isAbsolute path) (segments path)).reached
          (if isAbsolute path then [] else dir) := by
  unfold segments
  rw [Position.reached_walk fun h => by rw [h]; rfl]
  rfl

/-! ## Normal paths -/

/-- Whether a piece of a path leads down. -/
def IsName (piece : List Char) : Prop := piece ≠ [] ∧ piece ≠ ['.'] ∧ piece ≠ ['.', '.']

instance : DecidablePred IsName := fun _ => inferInstanceAs (Decidable (_ ∧ _))

/-- Paths that do not lead a longer way than they have to. -/
inductive IsNormal : List Char → Prop where
  | root : IsNormal ['/']
  | here : IsNormal ['.']
  | absolute {path : List Char} (h : ∀ piece ∈ splitOn '/' path, IsName piece) :
    IsNormal ('/' :: path)
  /-- What leads up comes first. -/
  | relative {path : List Char} (climbs : Nat) {names : List (List Char)}
    (hpath : splitOn '/' path = List.replicate climbs ['.', '.'] ++ names)
    (h : ∀ piece ∈ names, IsName piece) : IsNormal path

theorem move_of_isName {piece : List Char} (h : IsName piece) (dir : Directory) :
    move dir piece = piece :: dir := by
  unfold move
  rw [if_neg (not_or.2 ⟨h.1, h.2.1⟩), if_neg h.2.2]

theorem ofText_eq_descend_iff {piece name : List Char} :
    Segment.ofText piece = .descend name ↔ IsName piece ∧ piece = name := by
  unfold Segment.ofText IsName
  by_cases hstay : piece = [] ∨ piece = ['.']
  · rw [if_pos hstay]
    simp only [reduceCtorEq, false_iff]
    rintro ⟨⟨hempty, hdot, -⟩, -⟩
    exact hstay.elim hempty hdot
  · rw [if_neg hstay]
    obtain ⟨hempty, hdot⟩ := not_or.1 hstay
    by_cases hclimb : piece = ['.', '.']
    · simp [hclimb]
    · simp [hempty, hdot, hclimb]

namespace Position

variable {absolute : Bool} {p p' : Position}

/-- Positions that the walk along a path comes to. -/
structure Plain (absolute : Bool) (p : Position) : Prop where
  name : ∀ name ∈ p.names, IsName name
  slash : ∀ name ∈ p.names, '/' ∉ name
  /-- Above the root there is nothing. -/
  climbs : absolute = true → p.climbs = 0

theorem climbs_walk (h : absolute = true) :
    ∀ {steps : List Segment} {p : Position}, (p.walk absolute steps).climbs = p.climbs
  | [], _ => rfl
  | step :: steps, p => by
      show ((p.step absolute step).walk absolute steps).climbs = p.climbs
      rw [climbs_walk h]
      subst h
      cases step with
      | stay => rfl
      | descend name => rfl
      | climb => cases hn : p.names <;> simp [Position.step, hn]

theorem plain_walk (path : List Char) :
    (start.walk (isAbsolute path) (segments path)).Plain (isAbsolute path) := by
  have hdescend : ∀ name ∈ (start.walk (isAbsolute path) (segments path)).names,
      IsName name ∧ '/' ∉ name := by
    intro name hn
    rcases mem_names_walk hn with hn | hn
    · cases hn
    · obtain ⟨piece, hp, he⟩ := List.mem_map.1 hn
      obtain ⟨hname, rfl⟩ := ofText_eq_descend_iff.1 he
      exact ⟨hname, notMem_of_mem_splitOn hp⟩
  exact ⟨fun name hn => (hdescend name hn).1, fun name hn => (hdescend name hn).2,
    fun h => climbs_walk h⟩

/-- No piece of a position holds a `/`. -/
theorem Plain.notMem_of_mem_pieces (h : p.Plain absolute) {piece : List Char}
    (hp : piece ∈ p.pieces) : '/' ∉ piece := by
  rcases List.mem_append.1 hp with hp | hp
  · rw [List.eq_of_mem_replicate hp]
    decide
  · exact h.slash piece (List.mem_reverse.1 hp)

theorem Plain.ne_nil_of_mem_pieces (h : p.Plain absolute) {piece : List Char}
    (hp : piece ∈ p.pieces) : piece ≠ [] := by
  rcases List.mem_append.1 hp with hp | hp
  · rw [List.eq_of_mem_replicate hp]
    decide
  · exact (h.name piece (List.mem_reverse.1 hp)).1

/-- The pieces of the text of a position are its own, after the empty one
that makes it absolute. -/
theorem Plain.splitOn_text (h : p.Plain absolute) :
    splitOn '/' (p.text absolute)
      = match absolute, p.pieces with
        | true, [] => [[], []]
        | true, pieces => [] :: pieces
        | false, [] => [['.']]
        | false, pieces => pieces := by
  unfold text
  cases hp : p.pieces with
  | nil => cases absolute <;> rfl
  | cons first rest =>
    have hsplit : splitOn '/' (joinWith '/' (first :: rest)) = first :: rest :=
      splitOn_joinWith (by simp) fun piece hm => h.notMem_of_mem_pieces (hp ▸ hm)
    have hbody : joinWith '/' (first :: rest) ≠ [] := by
      intro hb
      rw [hb] at hsplit
      cases hsplit
      exact h.ne_nil_of_mem_pieces (by rw [hp]; simp) rfl
    cases absolute with
    | true => simp [splitOn, hsplit]
    | false => simp [hbody, hsplit]

theorem isAbsolute_text (absolute : Bool) (h : p.Plain absolute) :
    isAbsolute (p.text absolute) = absolute := by
  have hs := h.splitOn_text
  cases absolute with
  | true => rfl
  | false =>
    cases ht : p.text false with
    | nil => rfl
    | cons c rest =>
      -- otherwise its first piece would be empty
      by_contra hc
      have hslash : c = '/' := by simpa [isAbsolute] using hc
      rw [ht, hslash] at hs
      simp only [splitOn, if_true] at hs
      cases hp : p.pieces with
      | nil => simp [hp] at hs
      | cons first others =>
        rw [hp] at hs
        exact h.ne_nil_of_mem_pieces (by rw [hp]; simp) (List.cons.inj hs).1.symm

/-- The pieces of a position lead to it. -/
theorem Plain.foldl_pieces (h : p.Plain absolute) (dir : Directory) :
    p.pieces.foldl move dir = p.reached dir := by
  have hclimbs : ∀ (n : Nat) (dir : Directory),
      (List.replicate n ['.', '.']).foldl move dir = dir.drop n := by
    intro n
    induction n with
    | zero => exact fun dir => rfl
    | succ n ih =>
      intro dir
      rw [List.replicate_succ, List.foldl_cons, ih]
      cases dir <;> simp [move]
  have hnames : ∀ (names : List (List Char)) (dir : Directory), (∀ name ∈ names, IsName name) →
      names.reverse.foldl move dir = names ++ dir := by
    intro names
    induction names with
    | nil => exact fun dir _ => rfl
    | cons name names ih =>
      intro dir hn
      rw [List.forall_mem_cons] at hn
      rw [List.reverse_cons, List.foldl_append, ih dir hn.2]
      exact move_of_isName hn.1 _
  unfold pieces
  rw [List.foldl_append, hclimbs, hnames _ _ h.name]
  rfl

/-- The text of a position leads to it. -/
theorem Plain.arrive_text (h : p.Plain absolute) (dir : Directory) :
    arrive dir (p.text absolute) = p.reached (if absolute then [] else dir) := by
  unfold arrive
  rw [isAbsolute_text absolute h, h.splitOn_text, ← h.foldl_pieces]
  cases absolute <;> cases p.pieces <;> rfl

theorem Plain.isNormal_text (h : p.Plain absolute) : IsNormal (p.text absolute) := by
  have hs := h.splitOn_text
  cases absolute with
  | true =>
    have hp : p.pieces = p.names.reverse := by
      unfold pieces
      rw [h.climbs rfl]
      rfl
    cases hn : p.names.reverse with
    | nil =>
      unfold text
      rw [hp, hn]
      exact .root
    | cons first rest =>
      refine .absolute fun piece hm => ?_
      rw [hp, hn] at hs
      have hsplit : splitOn '/' (joinWith '/' p.pieces) = first :: rest := by
        simpa [text, splitOn] using hs
      rw [hsplit, ← hn, List.mem_reverse] at hm
      exact h.name piece hm
  | false =>
    cases hp : p.pieces with
    | nil =>
      unfold text
      rw [hp]
      exact .here
    | cons first rest =>
      rw [hp] at hs
      exact .relative p.climbs (hs.trans hp.symm) fun name hn =>
        h.name name (List.mem_reverse.1 hn)

/-- Every normal path is the text of a position. -/
theorem exists_text_of_isNormal {path : List Char} (h : IsNormal path) :
    ∃ (absolute : Bool) (p : Position), p.Plain absolute ∧ p.text absolute = path := by
  cases h with
  | root => exact ⟨true, start, ⟨by simp [start], by simp [start], fun _ => rfl⟩, rfl⟩
  | here => exact ⟨false, start, ⟨by simp [start], by simp [start], fun _ => rfl⟩, rfl⟩
  | @absolute path h =>
    refine ⟨true, ⟨0, (splitOn '/' path).reverse⟩, ⟨?_, ?_, fun _ => rfl⟩, ?_⟩
    · exact fun name hn => h name (List.mem_reverse.1 hn)
    · exact fun name hn => notMem_of_mem_splitOn (List.mem_reverse.1 hn)
    · simp [text, pieces, joinWith_splitOn]
  | @relative _ climbs names hpath h =>
    have hbody : joinWith '/' (⟨climbs, names.reverse⟩ : Position).pieces = path := by
      rw [pieces, List.reverse_reverse, ← hpath, joinWith_splitOn]
    refine ⟨false, ⟨climbs, names.reverse⟩, ⟨?_, ?_, fun h => by cases h⟩, ?_⟩
    · exact fun name hn => h name (List.mem_reverse.1 hn)
    · intro name hn
      refine notMem_of_mem_splitOn (s := path) ?_
      rw [hpath]
      exact List.mem_append_right _ (List.mem_reverse.1 hn)
    · have hne : path ≠ [] := by
        rintro rfl
        -- the one empty piece would be a name or lead up
        have hm : [] ∈ List.replicate climbs ['.', '.'] ++ names := hpath ▸ by simp [splitOn]
        rcases List.mem_append.1 hm with hm | hm
        · cases List.eq_of_mem_replicate hm
        · exact (h [] hm).1 rfl
      simp only [text, hbody, if_neg hne, Bool.false_eq_true, if_false]

/-- Different positions reach different directories: from the root if their
names differ, and else from a directory that is deep enough. -/
theorem Plain.eq_of_reached_eq {absolute' : Bool} (h : p.Plain absolute) (h' : p'.Plain absolute')
    (he : ∀ dir, p.reached (if absolute then [] else dir)
      = p'.reached (if absolute' then [] else dir)) : absolute = absolute' ∧ p = p' := by
  have hlength : ∀ (absolute : Bool) (p : Position) (n : Nat),
      (p.reached (if absolute then [] else List.replicate n [])).length
        = p.names.length + if absolute then 0 else n - p.climbs := by
    intro absolute p n
    cases absolute <;> simp [reached]
  have hnames : p.names = p'.names := by simpa [reached] using he []
  have hleft := congrArg List.length (he (List.replicate (p.climbs + p'.climbs + 1) []))
  rw [hlength, hlength, hnames, Nat.add_left_cancel_iff] at hleft
  have hroot := h.climbs
  have hroot' := h'.climbs
  obtain ⟨climbs, names⟩ := p
  obtain ⟨climbs', names'⟩ := p'
  simp only at hnames hleft hroot hroot'
  -- a relative walk leaves something of the directory
  have habs : absolute = absolute' := by
    cases absolute <;> cases absolute' <;> simp at hleft ⊢ <;> omega
  subst habs hnames
  have hclimbs : climbs = climbs' := by
    cases absolute with
    | true => rw [hroot rfl, hroot' rfl]
    | false =>
      simp only [Bool.false_eq_true, if_false] at hleft
      omega
  exact ⟨rfl, by rw [hclimbs]⟩

end Position

/-- A normal path is told by where it leads. -/
theorem eq_of_arrive_eq {path path' : List Char} (h : IsNormal path) (h' : IsNormal path')
    (he : ∀ dir, arrive dir path = arrive dir path') : path = path' := by
  obtain ⟨absolute, p, hp, rfl⟩ := Position.exists_text_of_isNormal h
  obtain ⟨absolute', p', hp', rfl⟩ := Position.exists_text_of_isNormal h'
  simp only [hp.arrive_text, hp'.arrive_text] at he
  obtain ⟨rfl, rfl⟩ := hp.eq_of_reached_eq hp' he
  rfl

/-! ## Normalising -/

theorem isNormal_normalizeChars (path : List Char) : IsNormal (normalizeChars path) :=
  (Position.plain_walk path).isNormal_text

/-- A path and its normal form lead alike. -/
theorem arrive_normalizeChars (dir : Directory) (path : List Char) :
    arrive dir (normalizeChars path) = arrive dir path := by
  unfold normalizeChars
  rw [(Position.plain_walk path).arrive_text, arrive_eq_reached]

theorem isAbsolute_normalizeChars (path : List Char) :
    isAbsolute (normalizeChars path) = isAbsolute path :=
  Position.isAbsolute_text _ (Position.plain_walk path)

/-- Normalising keeps whether a path starts at the root, gives a normal path
that leads from every directory to where the path leads, and changes
nothing the second time. -/
theorem normalForm_of_normalize (path : String) :
    isAbsolute (normalize path).toList = isAbsolute path.toList
    ∧ IsNormal (normalize path).toList
    ∧ (∀ dir, arrive dir (normalize path).toList = arrive dir path.toList)
    ∧ normalize (normalize path) = normalize path := by
  have hchars : ∀ path, (normalize path).toList = normalizeChars path.toList := fun path =>
    String.toList_ofList
  refine ⟨?_, ?_, fun dir => ?_, ?_⟩
  · rw [hchars, isAbsolute_normalizeChars]
  · rw [hchars]
    exact isNormal_normalizeChars _
  · rw [hchars, arrive_normalizeChars]
  · refine String.toList_inj.1 (eq_of_arrive_eq ?_ ?_ fun dir => ?_)
    · rw [hchars]
      exact isNormal_normalizeChars _
    · rw [hchars]
      exact isNormal_normalizeChars _
    · rw [hchars (normalize path), arrive_normalizeChars]

example : normalizeChars "../a/../../b//.".toList = "../../b".toList := by decide

end Path

end ImportChain
