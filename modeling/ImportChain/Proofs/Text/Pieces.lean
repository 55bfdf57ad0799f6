/-
ImportChain.Proofs.Text.Pieces — what a printed text is cut into again.

`splitOn_linked`: texts that do not hold the separator, each followed by
it, are cut into the same texts. `worded` counts the pieces that are not
empty and have a separator after them; it is what no reading of a text
can exceed, however its marks are taken.
-/
import ImportChain.Text

namespace ImportChain.Text

/-! ## Cutting -/

theorem splitOn_of_notMem {sep : Char} : ∀ {s : List Char}, sep ∉ s → splitOn sep s = [s]
  | [], _ => rfl
  | c :: s, h => by
      have hc : ¬ c = sep := fun e => h (by simp [e])
      have hs : sep ∉ s := fun hm => h (List.mem_cons_of_mem _ hm)
      simp only [splitOn, if_neg hc, splitOn_of_notMem hs]

theorem splitOn_append_cons {sep : Char} (rest : List Char) :
    ∀ {piece : List Char}, sep ∉ piece →
      splitOn sep (piece ++ sep :: rest) = piece :: splitOn sep rest
  | [], _ => by simp [splitOn]
  | c :: piece, h => by
      have hc : ¬ c = sep := fun e => h (by simp [e])
      have hp : sep ∉ piece := fun hm => h (List.mem_cons_of_mem _ hm)
      simp only [List.cons_append, splitOn, if_neg hc, splitOn_append_cons rest hp]

/-- Where two texts meet, the last piece of one and the first piece of the
other are one piece. -/
theorem splitOn_append {sep : Char} {t first : List Char} {rest : List (List Char)}
    (ht : splitOn sep t = first :: rest) : ∀ s : List Char,
      splitOn sep (s ++ t)
        = (splitOn sep s).dropLast ++ ((splitOn sep s).getLastD [] ++ first) :: rest
  | [] => by simp [splitOn, ht]
  | c :: s => by
      have ih := splitOn_append ht s
      have hne := splitOn_ne_nil sep s
      rw [List.cons_append]
      by_cases hc : c = sep
      · rw [splitOn, if_pos hc, ih, splitOn, if_pos hc]
        cases hs : splitOn sep s with
        | nil => exact absurd hs hne
        | cons piece others => simp
      · rw [splitOn, if_neg hc, ih, splitOn, if_neg hc]
        cases hs : splitOn sep s with
        | nil => exact absurd hs hne
        | cons piece others => cases others <;> simp

theorem dropLast_append_getLastD_splitOn (sep : Char) (s : List Char) :
    (splitOn sep s).dropLast ++ [(splitOn sep s).getLastD []] = splitOn sep s := by
  rw [List.getLastD_eq_getLast?, List.getLast?_eq_some_getLast (splitOn_ne_nil sep s),
    Option.getD_some, List.dropLast_concat_getLast]

/-- A text with a separator in it is cut there into the pieces before it and
those after it. -/
theorem splitOn_append_sep (sep : Char) (s t : List Char) :
    splitOn sep (s ++ sep :: t) = splitOn sep s ++ splitOn sep t := by
  have ht : splitOn sep (sep :: t) = [] :: splitOn sep t := by simp [splitOn]
  have hs := dropLast_append_getLastD_splitOn sep s
  rw [splitOn_append ht, List.append_nil, List.append_cons, hs]

/-- The last piece of a text is that of what follows a separator in it. -/
theorem getLastD_splitOn_append_cons (sep : Char) (s t : List Char) :
    (splitOn sep (s ++ sep :: t)).getLastD [] = (splitOn sep t).getLastD [] := by
  rw [splitOn_append_sep]
  cases hs : splitOn sep t with
  | nil => exact absurd hs (splitOn_ne_nil sep t)
  | cons piece others => simp [List.getLastD_eq_getLast?, List.getLast?_cons]

theorem getLastD_mem_splitOn (sep : Char) (s : List Char) :
    (splitOn sep s).getLastD [] ∈ splitOn sep s := by
  rw [List.getLastD_eq_getLast?, List.getLast?_eq_some_getLast (splitOn_ne_nil sep s)]
  exact List.getLast_mem _

/-- What follows a character that `start` does not hold plays no part in
whether a text begins with `start`. -/
theorem startsWith_append_cons {c : Char} {t : List Char} : ∀ {start s : List Char}, c ∉ start →
    startsWith start (s ++ c :: t) = startsWith start s
  | [], _, _ => rfl
  | a :: start, [], h => by
      have ha : ¬ a = c := fun e => h (by simp [e])
      simp [startsWith, dropStart?, ha]
  | a :: start, b :: s, h => by
      have ih : startsWith start (s ++ c :: t) = startsWith start s :=
        startsWith_append_cons fun hm => h (List.mem_cons_of_mem _ hm)
      unfold startsWith at ih ⊢
      rw [List.cons_append, dropStart?, dropStart?]
      split
      · exact ih
      · rfl

/-! ## Joining -/

/-- Pieces may be joined in two parts that meet within a piece. -/
theorem joinWith_append_cons (sep : Char) (last first : List Char) (rest : List (List Char)) :
    ∀ pieces : List (List Char), joinWith sep (pieces ++ (last ++ first) :: rest)
      = joinWith sep (pieces ++ [last]) ++ joinWith sep (first :: rest)
  | [] => by
      cases rest with
      | nil => rfl
      | cons second rest => simp [joinWith]
  | piece :: pieces => by
      rw [List.cons_append, List.cons_append, joinWith_cons_of_ne_nil _ _ (by simp),
        joinWith_cons_of_ne_nil _ _ (by simp), joinWith_append_cons sep last first rest pieces]
      simp

/-- A joined text holds what its pieces hold. -/
theorem mem_joinWith_of_mem {sep c : Char} : ∀ {pieces : List (List Char)} {piece : List Char},
    piece ∈ pieces → c ∈ piece → c ∈ joinWith sep pieces
  | [only], piece, hp, hc => by
      rw [List.mem_singleton.1 hp] at hc
      exact hc
  | first :: second :: rest, piece, hp, hc => by
      rw [joinWith_cons_of_ne_nil _ _ (by simp)]
      rcases List.mem_cons.1 hp with rfl | hp
      · exact List.mem_append_left _ hc
      · exact List.mem_append_right _ (List.mem_cons_of_mem _ (mem_joinWith_of_mem hp hc))

/-- A piece of a split is made of characters of the text. -/
theorem mem_of_mem_splitOn {sep c : Char} {s piece : List Char}
    (hp : piece ∈ splitOn sep s) (hc : c ∈ piece) : c ∈ s := by
  rw [← joinWith_splitOn sep s]
  exact mem_joinWith_of_mem hp hc

/-- A joined text holds nothing but the separator and what its pieces hold. -/
theorem mem_joinWith {sep c : Char} : ∀ {pieces : List (List Char)},
    c ∈ joinWith sep pieces → c = sep ∨ ∃ piece ∈ pieces, c ∈ piece
  | [], h => by simp [joinWith] at h
  | [piece], h => Or.inr ⟨piece, by simp, h⟩
  | piece :: second :: rest, h => by
      rw [joinWith_cons_of_ne_nil _ _ (by simp)] at h
      rcases List.mem_append.1 h with h | h
      · exact Or.inr ⟨piece, by simp, h⟩
      · rcases List.mem_cons.1 h with h | h
        · exact Or.inl h
        · rcases mem_joinWith h with h | ⟨p, hp, hc⟩
          · exact Or.inl h
          · exact Or.inr ⟨p, List.mem_cons_of_mem _ hp, hc⟩

/-! ## Linked pieces -/

/-- Texts with `sep` after each, and a last text. -/
def linked (sep : Char) (pieces : List (List Char)) (last : List Char) : List Char :=
  pieces.foldr (fun piece rest => piece ++ sep :: rest) last

@[simp] theorem linked_nil (sep : Char) (last : List Char) : linked sep [] last = last := rfl

@[simp] theorem linked_cons (sep : Char) (piece : List Char) (pieces : List (List Char))
    (last : List Char) :
    linked sep (piece :: pieces) last = piece ++ sep :: linked sep pieces last := rfl

/-- Linked texts are cut where they were linked. -/
theorem splitOn_linked {sep : Char} {last : List Char} (hl : sep ∉ last) :
    ∀ {pieces : List (List Char)}, (∀ piece ∈ pieces, sep ∉ piece) →
      splitOn sep (linked sep pieces last) = pieces ++ [last]
  | [], _ => by rw [linked_nil, splitOn_of_notMem hl]; rfl
  | piece :: pieces, h => by
      rw [linked_cons, splitOn_append_cons _ (h piece (by simp)),
        splitOn_linked hl fun p hp => h p (List.mem_cons_of_mem _ hp)]
      rfl

/-- The first separator of linked texts is the one after the first of
them. -/
theorem eq_cons_of_linked_eq {sep : Char} {last piece rest : List Char}
    {pieces : List (List Char)} (hl : sep ∉ last) (h : ∀ p ∈ pieces, sep ∉ p)
    (hp : sep ∉ piece) (he : linked sep pieces last = piece ++ sep :: rest) :
    ∃ others, pieces = piece :: others ∧ rest = linked sep others last := by
  have hcut := cutAt_eq_some_iff.2 ⟨he, hp⟩
  cases pieces with
  | nil =>
    rw [linked_nil, cutAt_eq_none_iff.2 hl] at hcut
    cases hcut
  | cons first others =>
    have hfirst : cutAt sep (linked sep (first :: others) last)
        = some (first, linked sep others last) :=
      cutAt_eq_some_iff.2 ⟨linked_cons .., h first (by simp)⟩
    rw [hfirst] at hcut
    cases hcut
    exact ⟨others, rfl, rfl⟩

/-- The last separator of a text stands in one place. -/
theorem append_cons_inj {sep : Char} {a b x y : List Char} (hx : sep ∉ x) (hy : sep ∉ y) :
    a ++ sep :: x = b ++ sep :: y ↔ a = b ∧ x = y := by
  constructor
  · intro h
    have hcut : ∀ {s t : List Char}, sep ∉ t →
        cutAt sep (s ++ sep :: t).reverse = some (t.reverse, s.reverse) := by
      intro s t ht
      exact cutAt_eq_some_iff.2 ⟨by simp, by simpa using ht⟩
    have hrest := (hcut hx).symm.trans (h ▸ hcut hy)
    obtain ⟨hxy, hab⟩ := Prod.mk.inj (Option.some.inj hrest)
    exact ⟨List.reverse_inj.1 hab, List.reverse_inj.1 hxy⟩
  · rintro ⟨rfl, rfl⟩
    rfl

/-! ## Counting separators -/

/-- There is a separator between each two pieces. -/
theorem count_joinWith {sep : Char} : ∀ {pieces : List (List Char)},
    (∀ piece ∈ pieces, sep ∉ piece) → (joinWith sep pieces).count sep = pieces.length - 1
  | [], _ => rfl
  | [piece], h => by simpa [joinWith] using List.count_eq_zero.2 (h piece (by simp))
  | piece :: second :: rest, h => by
      rw [List.forall_mem_cons] at h
      rw [joinWith_cons_of_ne_nil _ _ (by simp), List.count_append, List.count_cons_self,
        count_joinWith h.2, List.count_eq_zero.2 h.1]
      simp

/-- From the first `c` on, a joined text has no more separators than the
pieces after those without a `c` make. -/
theorem count_dropWhile_joinWith_le {sep c : Char} (hc : c ≠ sep) {pieces : List (List Char)}
    (h : ∀ piece ∈ pieces, sep ∉ piece) : ∀ {before : List (List Char)},
      (∀ piece ∈ before, c ∉ piece) →
        ((joinWith sep (before ++ pieces)).dropWhile (· ≠ c)).count sep ≤ pieces.length - 1
  | [], _ => by
      rw [List.nil_append, ← count_joinWith h]
      exact (List.dropWhile_sublist _).count_le _
  | piece :: before, hb => by
      rw [List.forall_mem_cons] at hb
      have hskip : ∀ rest : List Char,
          (piece ++ rest).dropWhile (· ≠ c) = rest.dropWhile (· ≠ c) := fun rest =>
        List.dropWhile_append_of_pos fun a ha => by simpa using fun e : a = c => hb.1 (e ▸ ha)
      cases hrest : before ++ pieces with
      | nil =>
        have hpiece := hskip []
        rw [List.append_nil] at hpiece
        rw [List.cons_append, hrest]
        show ((piece.dropWhile (· ≠ c)).count sep) ≤ _
        rw [hpiece]
        exact Nat.zero_le _
      | cons second others =>
        have ih := count_dropWhile_joinWith_le hc h hb.2
        rw [hrest] at ih
        rw [List.cons_append, hrest, joinWith_cons_of_ne_nil _ _ (by simp), hskip,
          List.dropWhile_cons_of_pos (by simpa using fun e => hc e.symm)]
        exact ih

/-! ## Counting words -/

/-- How many pieces of a text are not empty and have a separator after
them. -/
def worded (sep : Char) (s : List Char) : Nat :=
  ((splitOn sep s).dropLast.filter (· ≠ [])).length

theorem worded_append_cons {sep : Char} {piece : List Char} (hp : sep ∉ piece)
    (rest : List Char) :
    worded sep (piece ++ sep :: rest)
      = (if piece = [] then 0 else 1) + worded sep rest := by
  have hne := splitOn_ne_nil sep rest
  unfold worded
  rw [splitOn_append_cons rest hp, List.dropLast_cons_of_ne_nil hne]
  by_cases h : piece = []
  · simp [h]
  · simp [h, Nat.add_comm]

theorem worded_cons_self (sep : Char) (rest : List Char) :
    worded sep (sep :: rest) = worded sep rest := by
  have h : worded sep ([] ++ sep :: rest) = 0 + worded sep rest :=
    worded_append_cons (by simp) rest
  simpa using h

theorem worded_linked {sep : Char} {last : List Char} (hl : sep ∉ last)
    {pieces : List (List Char)} (h : ∀ piece ∈ pieces, sep ∉ piece) :
    worded sep (linked sep pieces last) = (pieces.filter (· ≠ [])).length := by
  unfold worded
  rw [splitOn_linked hl h, List.dropLast_concat]

/-- Separators at the front have no words before them. -/
theorem worded_dropWhile (sep : Char) :
    ∀ s : List Char, worded sep (s.dropWhile (· = sep)) = worded sep s
  | [] => rfl
  | c :: s => by
      by_cases hc : c = sep
      · subst hc
        rw [List.dropWhile_cons_of_pos (by simp), worded_dropWhile c s, worded_cons_self]
      · rw [List.dropWhile_cons_of_neg (by simp [hc])]

end ImportChain.Text
