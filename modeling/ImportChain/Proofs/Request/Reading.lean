/-
ImportChain.Proofs.Request.Reading — what a request says, told without the
way it is taken apart.

`Request.Reads` is the written procedure: a match-resource is matched by
`^([^!]+)!=!`, the suppressions are the marks that what follows begins with,
one leading match of `-?!+` is deleted, every run of `!` is replaced by one,
and what is left is cut at each `!`. `parse_eq_iff_reads` says that this is
what parsing gives, for every text in every directory.

Parsing never replaces a run. It cuts first and passes over the empty pieces
before the last, which comes to the same because no text without its mark
begins with `!` (`splitOn_collapse`).
-/
import ImportChain.Proofs.Request.RoundTrip
import ImportChain.Proofs.Text.Runs
import Mathlib.Data.List.Forall2

namespace ImportChain

open Text

/-! ## Loaders -/

/-- How a segment writes a loader. It is cut at its first `?`. -/
inductive LoaderSpec.WrittenBy : LoaderSpec → List Char → Prop where
  | name {name : List Char} (h : '?' ∉ name) : WrittenBy ⟨String.ofList name, .absent, none⟩ name
  | nothing {name : List Char} (h : '?' ∉ name) :
    WrittenBy ⟨String.ofList name, .absent, none⟩ (name ++ ['?'])
  | reference {name : List Char} (h : '?' ∉ name) (ident : List Char) :
    WrittenBy ⟨String.ofList name, .absent, some (String.ofList ident)⟩
      (name ++ '?' :: '?' :: ident)
  | query {name query : List Char} (h : '?' ∉ name) (hne : query ≠ [])
    (hquery : query.head? ≠ some '?') :
    WrittenBy ⟨String.ofList name, .inline (String.ofList query), none⟩ (name ++ '?' :: query)

theorem LoaderSpec.writtenBy_iff {spec : LoaderSpec} {segment : List Char} :
    spec.WrittenBy segment ↔ spec = ofChars segment := by
  constructor
  · have hcut : ∀ {name rest : List Char}, '?' ∉ name → cutAt '?' (name ++ '?' :: rest)
        = some (name, rest) := fun h => cutAt_eq_some_iff.2 ⟨rfl, h⟩
    intro h
    unfold ofChars
    cases h with
    | name h => rw [cutAt_eq_none_iff.2 h]
    | nothing h => rw [hcut h]
    | reference h ident => rw [hcut h]; rfl
    | @query name query h hne hquery =>
      rw [hcut h]
      cases query with
      | nil => exact absurd rfl hne
      | cons c query =>
        have hc : c ≠ '?' := fun e => hquery (congrArg some e)
        simp only [hc, if_false]
  · rintro rfl
    unfold ofChars
    cases hcut : cutAt '?' segment with
    | none => exact .name (cutAt_eq_none_iff.1 hcut)
    | some cut =>
      obtain ⟨name, query⟩ := cut
      obtain ⟨rfl, hname⟩ := cutAt_eq_some_iff.1 hcut
      cases query with
      | nil => exact .nothing hname
      | cons c query =>
        by_cases hc : c = '?'
        · subst hc
          exact .reference hname query
        · simp only [hc, if_false]
          exact .query hname (by simp) (by simpa using hc)

theorem LoaderSpec.forall₂_writtenBy_iff {specs : List LoaderSpec} {segments : List (List Char)} :
    List.Forall₂ WrittenBy specs segments ↔ specs = segments.map ofChars := by
  rw [← List.forall₂_eq_eq_eq, List.forall₂_map_right_iff]
  exact ⟨.imp fun _ _ => writtenBy_iff.1, .imp fun _ _ => writtenBy_iff.2⟩

/-! ## Marks -/

namespace Suppression

/-- What is dropped tells suppressions apart. -/
theorem eq_of_drops_eq {s s' : Suppression} (hpre : s.dropsPre = s'.dropsPre)
    (hpost : s.dropsPost = s'.dropsPost) : s = s' := by
  revert hpre hpost
  cases s <;> cases s' <;> decide

theorem dropsPre_ofChars (rest : List Char) :
    (ofChars rest).dropsPre = true ↔ ['!'] <+: rest ∨ ['-', '!'] <+: rest := by
  unfold ofChars
  split
  · exact iff_of_true rfl (Or.inl ⟨_, rfl⟩)
  · exact iff_of_true rfl (Or.inl ⟨_, rfl⟩)
  · exact iff_of_true rfl (Or.inr ⟨_, rfl⟩)
  · next _ hbang hdash =>
    refine iff_of_false nofun ?_
    rintro (⟨later, rfl⟩ | ⟨later, rfl⟩)
    · exact hbang later rfl
    · exact hdash later rfl

theorem dropsPost_ofChars (rest : List Char) :
    (ofChars rest).dropsPost = true ↔ ['!', '!'] <+: rest := by
  unfold ofChars
  split
  · exact iff_of_true rfl ⟨_, rfl⟩
  · next hbangs =>
    refine iff_of_false nofun ?_
    rintro ⟨later, h⟩
    exact hbangs later (List.cons.inj h).2.symm
  · exact iff_of_false nofun (by rintro ⟨later, ⟨⟩⟩)
  · next hbangs _ _ =>
    refine iff_of_false nofun ?_
    rintro ⟨later, rfl⟩
    exact hbangs later rfl

end Suppression

namespace Request

/-- A text that `-?!+` matches. -/
def IsMark (mark : List Char) : Prop :=
  ∃ n, mark = List.replicate (n + 1) '!' ∨ mark = '-' :: List.replicate (n + 1) '!'

/-- What is left of a text without the mark that it begins with, if it begins
with one. The `!+` takes every `!` there is. -/
inductive Unmarked (rest : List Char) : List Char → Prop where
  | marked {mark body : List Char} (h : IsMark mark) (hrest : rest = mark ++ body)
    (hall : body.head? ≠ some '!') : Unmarked rest body
  | plain (h : ∀ mark, IsMark mark → ¬ mark <+: rest) : Unmarked rest rest

theorem dropWhile_replicate_append {body : List Char} (h : body.head? ≠ some '!') (n : Nat) :
    (List.replicate n '!' ++ body).dropWhile (· = '!') = body := by
  rw [List.dropWhile_append_of_pos (by simp [List.mem_replicate])]
  cases body with
  | nil => rfl
  | cons c body => exact List.dropWhile_cons_of_neg (by simpa using h)

theorem exists_replicate_append_dropWhile : ∀ s : List Char,
    ∃ n, s = List.replicate n '!' ++ s.dropWhile (· = '!')
      ∧ (s.dropWhile (· = '!')).head? ≠ some '!'
  | [] => ⟨0, rfl, nofun⟩
  | c :: s => by
      by_cases hc : c = '!'
      · obtain ⟨n, hs, hall⟩ := exists_replicate_append_dropWhile s
        rw [List.dropWhile_cons_of_pos (by simpa using hc)]
        exact ⟨n + 1, by rw [List.replicate_succ, List.cons_append, ← hs, hc], hall⟩
      · rw [List.dropWhile_cons_of_neg (by simpa using hc)]
        exact ⟨0, rfl, by simpa using hc⟩

theorem head?_withoutMark (rest : List Char) : (withoutMark rest).head? ≠ some '!' := by
  unfold withoutMark
  split
  · next later =>
    obtain ⟨-, -, hall⟩ := exists_replicate_append_dropWhile later
    exact hall
  · obtain ⟨-, -, hall⟩ := exists_replicate_append_dropWhile rest
    exact hall

theorem unmarked_iff {rest body : List Char} : Unmarked rest body ↔ body = withoutMark rest := by
  constructor
  · rintro (⟨⟨n, rfl | rfl⟩, rfl, hall⟩ | h)
    · exact (dropWhile_replicate_append hall (n + 1)).symm
    · exact (dropWhile_replicate_append hall n).symm
    · have hbang : rest.head? ≠ some '!' := by
        intro hhead
        obtain ⟨later, rfl⟩ := List.head?_eq_some_iff.1 hhead
        exact h ['!'] ⟨0, Or.inl rfl⟩ ⟨later, rfl⟩
      have hdash : ∀ later, rest ≠ '-' :: '!' :: later := by
        rintro later rfl
        exact h ['-', '!'] ⟨0, Or.inr rfl⟩ ⟨later, rfl⟩
      exact (withoutMark_mark_append hbang .nothing fun _ => hdash).symm
  · rintro rfl
    unfold withoutMark
    split
    · next later =>
      obtain ⟨n, hlater, hall⟩ := exists_replicate_append_dropWhile later
      exact .marked ⟨n, Or.inr rfl⟩ (congrArg ('-' :: '!' :: ·) hlater) hall
    · next hdash =>
      obtain ⟨n, hrest, hall⟩ := exists_replicate_append_dropWhile rest
      cases n with
      | succ n => exact .marked ⟨n, Or.inl rfl⟩ hrest hall
      | zero =>
        -- nothing is dropped, so that no mark can stand at the front
        have hsame : rest.dropWhile (· = '!') = rest := hrest.symm
        rw [hsame] at hall ⊢
        refine .plain ?_
        rintro mark ⟨n, rfl | rfl⟩ ⟨later, rfl⟩
        · exact hall rfl
        · exact hdash _ rfl

/-! ## The procedure -/

/-- A text that `^([^!]+)!=!` matches, with what is captured and what
follows. -/
structure Matched (raw name rest : List Char) : Prop where
  nonempty : name ≠ []
  noBang : '!' ∉ name
  text : raw = name ++ '!' :: '=' :: '!' :: rest

/-- What follows a match-resource, read as the other parts of a request. -/
structure ReadsBody (rest : List Char) (p : Request) : Prop where
  pre : p.suppression.dropsPre = true ↔ ['!'] <+: rest ∨ ['-', '!'] <+: rest
  normal : p.suppression.dropsNormal = true ↔ ['!'] <+: rest ∨ ['-', '!'] <+: rest
  post : p.suppression.dropsPost = true ↔ ['!', '!'] <+: rest
  chain : ∃ body segments, Unmarked rest body
    ∧ (collapse '!' body).splitOn '!' = segments ++ [p.resource.toList]
    ∧ List.Forall₂ LoaderSpec.WrittenBy p.loaders segments

/-- What a text says in a directory. -/
inductive Reads (context raw : String) (p : Request) : Prop where
  | matched {name rest : List Char} (h : Matched raw.toList name rest)
    (hname : p.matchResource = some (
      if ['.', '/'] <+: name ∨ ['.', '.', '/'] <+: name then
        Path.join context (String.ofList name)
      else String.ofList name))
    (hbody : ReadsBody rest p) : Reads context raw p
  | unmatched (h : ∀ name rest, ¬ Matched raw.toList name rest) (hnone : p.matchResource = none)
    (hbody : ReadsBody raw.toList p) : Reads context raw p

theorem matched_iff {raw name rest : List Char} :
    Matched raw name rest ↔ splitMatchResource raw = some (name, rest) := by
  rw [splitMatchResource_eq_some_iff]
  exact ⟨fun ⟨hne, hn, htext⟩ => ⟨htext, hn, hne⟩, fun ⟨htext, hn, hne⟩ => ⟨hne, hn, htext⟩⟩

theorem anchored_eq (context : String) (name : List Char) :
    anchored context name
      = if ['.', '/'] <+: name ∨ ['.', '.', '/'] <+: name then
          Path.join context (String.ofList name)
        else String.ofList name := by
  have hrelative : Path.isRelative (String.ofList name) = true
      ↔ ['.', '/'] <+: name ∨ ['.', '.', '/'] <+: name := by
    unfold Path.isRelative
    rw [Bool.or_eq_true, startsWith_iff, startsWith_iff, String.toList_ofList]
    simp only [List.IsPrefix, eq_comm]
  unfold anchored
  simp only [hrelative]

/-- The parts after a match-resource are what they are read as, and nothing
else is read. -/
theorem ofBody_eq_iff {matchResource : Option String} {rest : List Char} {p : Request} :
    ofBody matchResource rest = p ↔ p.matchResource = matchResource ∧ ReadsBody rest p := by
  have hsplit := splitOn_collapse (head?_withoutMark rest)
  constructor
  · rintro rfl
    refine ⟨rfl, Suppression.dropsPre_ofChars rest, Suppression.dropsPre_ofChars rest,
      Suppression.dropsPost_ofChars rest, _, _, unmarked_iff.2 rfl, ?_,
      LoaderSpec.forall₂_writtenBy_iff.2 rfl⟩
    rw [hsplit]
    unfold ofBody chainOf
    rw [String.toList_ofList]
  · rintro ⟨rfl, hpre, -, hpost, body, segments, hbody, hpieces, hwritten⟩
    -- the two ways of cutting agree, and with them their last piece
    rw [unmarked_iff.1 hbody, hsplit] at hpieces
    obtain ⟨hsegments, hresource⟩ := List.append_inj' hpieces rfl
    have hsuppression : Suppression.ofChars rest = p.suppression :=
      Suppression.eq_of_drops_eq
        (Bool.eq_iff_iff.2 ((Suppression.dropsPre_ofChars rest).trans hpre.symm))
        (Bool.eq_iff_iff.2 ((Suppression.dropsPost_ofChars rest).trans hpost.symm))
    have hloaders : ((splitOn '!' (withoutMark rest)).dropLast.filter (· ≠ [])).map
        LoaderSpec.ofChars = p.loaders := by
      rw [hsegments, LoaderSpec.forall₂_writtenBy_iff.1 hwritten]
    have hlast : String.ofList ((splitOn '!' (withoutMark rest)).getLastD []) = p.resource := by
      rw [(List.cons.inj hresource).1, String.ofList_toList]
    unfold ofBody chainOf
    simp only [hsuppression, hloaders, hlast]

/-- Parsing gives what a text says, and nothing else, for every text in every
directory. -/
theorem parse_eq_iff_reads (context raw : String) (p : Request) :
    parse context raw = p ↔ Reads context raw p := by
  unfold parse
  cases hsplit : splitMatchResource raw.toList with
  | some split =>
    obtain ⟨name, rest⟩ := split
    have hmatched := matched_iff.2 hsplit
    simp only
    rw [ofBody_eq_iff, anchored_eq]
    constructor
    · rintro ⟨hname, hbody⟩
      exact .matched hmatched hname hbody
    · rintro (⟨h, hname, hbody⟩ | ⟨h, -, -⟩)
      · have hsame := hsplit.symm.trans (matched_iff.1 h)
        cases hsame
        exact ⟨hname, hbody⟩
      · exact absurd hmatched (h name rest)
  | none =>
    have hnot : ∀ name rest, ¬ Matched raw.toList name rest := by
      intro name rest h
      rw [matched_iff.1 h] at hsplit
      cases hsplit
    simp only
    rw [ofBody_eq_iff]
    constructor
    · rintro ⟨hnone, hbody⟩
      exact .unmatched hnot hnone hbody
    · rintro (⟨h, -, -⟩ | ⟨-, hnone, hbody⟩)
      · exact absurd h (hnot _ _)
      · exact ⟨hnone, hbody⟩

/-- Runs of `!` count as one, and the last one leaves no resource. -/
example : parse "/app/src" "../v.css!=!-!!a!!!b?x?y!?z!c??i!!"
    = ⟨some "/app/v.css", .automatic, [⟨"a", .absent, none⟩, ⟨"b", .inline "x?y", none⟩,
      ⟨"", .inline "z", none⟩, ⟨"c", .absent, some "i"⟩], ""⟩ := by decide

end Request

end ImportChain
