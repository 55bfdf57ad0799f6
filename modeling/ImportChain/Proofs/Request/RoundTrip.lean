/-
ImportChain.Proofs.Request.RoundTrip — when a request that is printed
reads back as itself.

A segment may end in a `?` that says nothing. It is dropped when the
loader is printed, and what is left can be read as something else: an
empty segment is skipped, a `-` before the first `!` is a suppression
mark, and a `=` between the first two is the marker of a match-resource.
`parse_toText_eq_iff` says that nothing else can go wrong.

`Settled` is what a parsed request keeps to; `ofBody_marked_eq_iff` is
the round trip of what follows the match-resource.
-/
import ImportChain.Request.Basic
import ImportChain.Proofs.Path.Normal

namespace ImportChain

open Text

/-! ## Loaders -/

namespace LoaderSpec

/-- The loader of a name, without options. -/
def named (name : String) : LoaderSpec := { identifier := name }

theorem ofChars_of_notMem {segment : List Char} (h : '?' ∉ segment) :
    ofChars segment = named (String.ofList segment) := by
  unfold ofChars
  rw [cutAt_eq_none_iff.2 h]
  rfl

/-- A printed loader is its segment, except that a `?` with nothing after
it is dropped. -/
theorem toIdent_ofChars (segment : List Char) :
    (ofChars segment).toIdent.toList = segment
      ∨ '?' ∉ (ofChars segment).toIdent.toList
        ∧ segment = (ofChars segment).toIdent.toList ++ ['?']
        ∧ ofChars segment = named (ofChars segment).toIdent := by
  unfold ofChars
  cases hcut : cutAt '?' segment with
  | none => exact Or.inl (by simp [toIdent, identText])
  | some cut =>
    obtain ⟨identifier, query⟩ := cut
    obtain ⟨hs, hn⟩ := cutAt_eq_some_iff.1 hcut
    cases query with
    | nil => exact Or.inr (by simpa [toIdent, identText, named] using ⟨hn, hs⟩)
    | cons c query =>
      refine Or.inl ?_
      by_cases hc : c = '?'
      · simp [toIdent, String.toList_append, hs, hc]
      · simp [toIdent, identText, String.toList_append, hs, hc]

/-- A loader that a segment writes is read back from its printed form. -/
theorem ofChars_toIdent_ofChars (segment : List Char) :
    ofChars (ofChars segment).toIdent.toList = ofChars segment := by
  rcases toIdent_ofChars segment with h | ⟨hn, _, hnamed⟩
  · rw [h]
  · rw [ofChars_of_notMem hn, String.ofList_toList, ← hnamed]

theorem mem_of_mem_toIdent_ofChars {segment : List Char} {c : Char}
    (h : c ∈ (ofChars segment).toIdent.toList) : c ∈ segment := by
  rcases toIdent_ofChars segment with hs | ⟨_, hs, _⟩
  · rwa [hs] at h
  · rw [hs]
    exact List.mem_append_left _ h

/-- Only the loader of a name is printed as that name. -/
theorem toIdent_eq_iff {spec : LoaderSpec} (h : ofChars spec.toIdent.toList = spec)
    {name : String} (hn : '?' ∉ name.toList) :
    spec.toIdent.toList = name.toList ↔ spec = named name := by
  constructor
  · intro he
    rw [he, ofChars_of_notMem hn, String.ofList_toList] at h
    exact h.symm
  · rintro rfl
    rfl

end LoaderSpec

namespace Request

/-! ## What a parsed request keeps to -/

/-- A request as parsing in a directory leaves it. -/
structure Settled (context : String) (p : Request) : Prop where
  /-- Every loader is read back from its printed form. -/
  reads : ∀ spec ∈ p.loaders, LoaderSpec.ofChars spec.toIdent.toList = spec
  /-- A printed loader is a single segment. -/
  segment : ∀ spec ∈ p.loaders, '!' ∉ spec.toIdent.toList
  resource : '!' ∉ p.resource.toList
  /-- A match-resource can be marked, and is as seen from the directory. -/
  matched : ∀ name, p.matchResource = some name →
    name.toList ≠ [] ∧ '!' ∉ name.toList ∧ anchored context name.toList = name

theorem splitMatchResource_eq_some_iff {raw name rest : List Char} :
    splitMatchResource raw = some (name, rest)
      ↔ raw = name ++ '!' :: '=' :: '!' :: rest ∧ '!' ∉ name ∧ name ≠ [] := by
  unfold splitMatchResource
  constructor
  · intro h
    split at h
    · next c start after hcut =>
      cases h
      obtain ⟨hraw, hn⟩ := cutAt_eq_some_iff.1 hcut
      exact ⟨hraw, hn, by simp⟩
    · cases h
  · rintro ⟨hraw, hn, hne⟩
    rw [cutAt_eq_some_iff.2 ⟨hraw, hn⟩]
    cases name with
    | nil => exact absurd rfl hne
    | cons c start => rfl

/-- A match-resource as seen from an absolute directory, once more seen
from there. -/
theorem anchored_anchored {context : String} (h : Path.isAbsolute context.toList = true)
    (name : List Char) :
    anchored context (anchored context name).toList = anchored context name := by
  by_cases hr : Path.isRelative (String.ofList name) = true
  · have ha : anchored context name = Path.join context (String.ofList name) := if_pos hr
    obtain ⟨rest, hrest⟩ := Path.exists_join_eq_slash_cons h (String.ofList name)
    have hno := Path.isRelative_of_slash_cons hrest
    rw [ha]
    unfold anchored
    rw [String.ofList_toList, hno]
    rfl
  · have ha : anchored context name = String.ofList name := if_neg hr
    rw [ha, String.toList_ofList, ha]

theorem anchored_ne_nil {context : String} (h : Path.isAbsolute context.toList = true)
    {name : List Char} (hne : name ≠ []) : (anchored context name).toList ≠ [] := by
  unfold anchored
  split
  · obtain ⟨rest, hrest⟩ := Path.exists_join_eq_slash_cons h (String.ofList name)
    rw [hrest]
    simp
  · rwa [String.toList_ofList]

theorem bang_notMem_anchored {context : String} (hc : '!' ∉ context.toList) {name : List Char}
    (hn : '!' ∉ name) : '!' ∉ (anchored context name).toList := by
  unfold anchored
  split
  · intro hm
    rcases Path.mem_join hm with h | h | h | h
    · cases h
    · cases h
    · exact hc h
    · rw [String.toList_ofList] at h
      exact hn h
  · rwa [String.toList_ofList]

theorem settled_ofBody {context : String} {matchResource : Option String}
    (h : ∀ name, matchResource = some name →
      name.toList ≠ [] ∧ '!' ∉ name.toList ∧ anchored context name.toList = name)
    (rest : List Char) : (ofBody matchResource rest).Settled context := by
  have hloader : ∀ spec ∈ (ofBody matchResource rest).loaders,
      ∃ segment ∈ splitOn '!' (withoutMark rest), spec = LoaderSpec.ofChars segment := by
    intro spec hs
    obtain ⟨segment, hseg, rfl⟩ := List.mem_map.1 hs
    exact ⟨segment, List.dropLast_subset _ (List.mem_filter.1 hseg).1, rfl⟩
  refine ⟨?_, ?_, ?_, h⟩
  · intro spec hs
    obtain ⟨segment, _, rfl⟩ := hloader spec hs
    exact LoaderSpec.ofChars_toIdent_ofChars segment
  · intro spec hs hm
    obtain ⟨segment, hseg, rfl⟩ := hloader spec hs
    exact notMem_of_mem_splitOn hseg (LoaderSpec.mem_of_mem_toIdent_ofChars hm)
  · have hlast : (splitOn '!' (withoutMark rest)).getLastD [] ∈ splitOn '!' (withoutMark rest) := by
      rw [List.getLastD_eq_getLast?, List.getLast?_eq_some_getLast (splitOn_ne_nil _ _)]
      exact List.getLast_mem _
    intro hm
    unfold ofBody chainOf at hm
    rw [String.toList_ofList] at hm
    exact notMem_of_mem_splitOn hlast hm

theorem settled_parse {context : String} (habs : Path.isAbsolute context.toList = true)
    (hbang : '!' ∉ context.toList) (raw : String) : (parse context raw).Settled context := by
  unfold parse
  split
  · next name rest hsplit =>
    obtain ⟨_, hn, hne⟩ := splitMatchResource_eq_some_iff.1 hsplit
    refine settled_ofBody ?_ rest
    rintro _ ⟨⟩
    exact ⟨anchored_ne_nil habs hne, bang_notMem_anchored hbang hn, anchored_anchored habs name⟩
  · refine settled_ofBody ?_ _
    intro name h
    cases h

/-! ## What follows the match-resource -/

theorem ofChars_mark_append {body : List Char} (hb : body.head? ≠ some '!') (s : Suppression)
    (hd : s = .nothing → ∀ rest, body ≠ '-' :: '!' :: rest) :
    Suppression.ofChars (s.mark.toList ++ body) = s := by
  cases s with
  | nothing =>
    show Suppression.ofChars body = .nothing
    unfold Suppression.ofChars
    split
    · exact absurd rfl hb
    · exact absurd rfl hb
    · next rest => exact absurd rfl (hd rfl rest)
    · rfl
  | automatic =>
    show Suppression.ofChars ('!' :: body) = .automatic
    cases body with
    | nil => rfl
    | cons c body =>
      have hc : c ≠ '!' := fun e => hb (by simp [e])
      unfold Suppression.ofChars
      split
      · next h => cases h; exact absurd rfl hc
      · rfl
      · next h => cases h
      · next _ h _ => exact absurd rfl (h _)
  | everything => rfl

theorem withoutMark_mark_append {body : List Char} (hb : body.head? ≠ some '!')
    (s : Suppression) (hd : s = .nothing → ∀ rest, body ≠ '-' :: '!' :: rest) :
    withoutMark (s.mark.toList ++ body) = body := by
  have hdrop : body.dropWhile (· = '!') = body := by
    cases body with
    | nil => rfl
    | cons c body =>
      have hc : c ≠ '!' := fun e => hb (by simp [e])
      exact List.dropWhile_cons_of_neg (by simp [hc])
  cases s with
  | nothing =>
    show withoutMark body = body
    unfold withoutMark
    split
    · next rest => exact absurd rfl (hd rfl rest)
    · exact hdrop
  | automatic => exact hdrop
  | everything => exact hdrop

/-- No reading of the marks at the front finds more words. -/
theorem worded_withoutMark_le (rest : List Char) :
    worded '!' (withoutMark rest) ≤ worded '!' rest := by
  unfold withoutMark
  split
  · next rest =>
    have h : worded '!' (['-'] ++ '!' :: rest) = 1 + worded '!' rest :=
      worded_append_cons (by decide) rest
    rw [worded_dropWhile]
    show worded '!' rest ≤ worded '!' (['-'] ++ '!' :: rest)
    omega
  · exact Nat.le_of_eq (worded_dropWhile '!' _)

theorem worded_mark_append (s : Suppression) (body : List Char) :
    worded '!' (s.mark.toList ++ body) = worded '!' body := by
  cases s with
  | nothing => rfl
  | automatic => exact worded_cons_self '!' body
  | everything => exact (worded_cons_self '!' ('!' :: body)).trans (worded_cons_self '!' body)

section Body

variable {pieces : List (List Char)} {resource : List Char} (matchResource : Option String)
  (s : Suppression)

theorem ofBody_marked (hp : ∀ piece ∈ pieces, '!' ∉ piece) (hr : '!' ∉ resource)
    (hne : [] ∉ pieces) (hdash : s = .nothing → pieces[0]? ≠ some ['-']) :
    ofBody matchResource (s.mark.toList ++ linked '!' pieces resource)
      = ⟨matchResource, s, pieces.map LoaderSpec.ofChars, String.ofList resource⟩ := by
  have hb : (linked '!' pieces resource).head? ≠ some '!' := by
    intro h
    cases hl : linked '!' pieces resource with
    | nil => simp [hl] at h
    | cons c rest =>
      rw [hl] at h
      cases h
      obtain ⟨others, ho, _⟩ := eq_cons_of_linked_eq hr hp (List.not_mem_nil : '!' ∉ []) hl
      exact hne (by simp [ho])
  have hd : s = .nothing → ∀ rest, linked '!' pieces resource ≠ '-' :: '!' :: rest := by
    intro hs rest hl
    have hl' : linked '!' pieces resource = ['-'] ++ '!' :: rest := hl
    obtain ⟨others, ho, _⟩ := eq_cons_of_linked_eq hr hp (by decide) hl'
    exact hdash hs (by simp [ho])
  have hwords : pieces.filter (· ≠ []) = pieces := by
    rw [List.filter_eq_self]
    intro piece hm
    have : piece ≠ [] := fun e => hne (e ▸ hm)
    simpa using this
  unfold ofBody chainOf
  rw [ofChars_mark_append hb s hd, withoutMark_mark_append hb s hd, splitOn_linked hr hp]
  simp only [List.dropLast_concat, List.getLastD_concat, hwords]

/-- A body that is read back as it was printed keeps its loaders. -/
theorem ofBody_marked_eq_iff (hp : ∀ piece ∈ pieces, '!' ∉ piece) (hr : '!' ∉ resource) :
    ofBody matchResource (s.mark.toList ++ linked '!' pieces resource)
        = ⟨matchResource, s, pieces.map LoaderSpec.ofChars, String.ofList resource⟩
      ↔ [] ∉ pieces ∧ (s = .nothing → pieces[0]? ≠ some ['-']) := by
  constructor
  · intro h
    constructor
    · -- an empty piece is not read as a loader, and nothing makes up for it
      have hlen := congrArg (fun p => p.loaders.length) h
      have hread : (ofBody matchResource (s.mark.toList ++ linked '!' pieces resource)).loaders.length
          = worded '!' (withoutMark (s.mark.toList ++ linked '!' pieces resource)) :=
        List.length_map ..
      have hle := worded_withoutMark_le (s.mark.toList ++ linked '!' pieces resource)
      rw [worded_mark_append, worded_linked hr hp] at hle
      simp only [hread, List.length_map] at hlen
      have hall : (pieces.filter (· ≠ [])).length = pieces.length :=
        Nat.le_antisymm (List.length_filter_le _ _) (by omega)
      intro hm
      have := List.length_filter_eq_length_iff.1 hall [] hm
      simp at this
    · rintro rfl hhead
      have hs := congrArg Request.suppression h
      cases pieces with
      | nil => simp at hhead
      | cons piece others =>
        have hpiece : piece = ['-'] := by simpa using hhead
        subst hpiece
        cases hs
  · rintro ⟨hne, hdash⟩
    exact ofBody_marked matchResource s hp hr hne hdash

/-- A printed request has a match-resource that its own text does not have
exactly if its second loader is a `=` and nothing stands before the first. -/
theorem splitMatchResource_marked_eq_none_iff (hp : ∀ piece ∈ pieces, '!' ∉ piece)
    (hr : '!' ∉ resource) (hne : [] ∉ pieces) :
    splitMatchResource (s.mark.toList ++ linked '!' pieces resource) = none
      ↔ (s = .nothing → pieces[1]? ≠ some ['=']) := by
  constructor
  · rintro hnone rfl hsecond
    cases pieces with
    | nil => simp at hsecond
    | cons first others =>
      cases others with
      | nil => simp at hsecond
      | cons second others =>
        have he : second = ['='] := by simpa using hsecond
        subst he
        have hfirst : first ≠ [] := fun e => hne (by simp [e])
        have hsome : splitMatchResource
            (first ++ '!' :: '=' :: '!' :: linked '!' others resource)
              = some (first, linked '!' others resource) :=
          splitMatchResource_eq_some_iff.2 ⟨rfl, hp first (by simp), hfirst⟩
        exact absurd (hnone.symm.trans hsome) (by simp)
  · intro hsecond
    cases hsplit : splitMatchResource (s.mark.toList ++ linked '!' pieces resource) with
    | none => rfl
    | some split =>
      obtain ⟨name, rest⟩ := split
      obtain ⟨htext, hn, hname⟩ := splitMatchResource_eq_some_iff.1 hsplit
      obtain ⟨c, name, rfl⟩ := List.exists_cons_of_ne_nil hname
      have hc : c ≠ '!' := fun e => hn (by simp [e])
      cases s with
      | nothing =>
        obtain ⟨others, ho, hrest⟩ := eq_cons_of_linked_eq hr hp hn htext
        have hrest' : linked '!' others resource = ['='] ++ '!' :: rest := hrest.symm
        have hothers : ∀ piece ∈ others, '!' ∉ piece := by
          intro piece hm
          exact hp piece (by rw [ho]; exact List.mem_cons_of_mem _ hm)
        obtain ⟨_, ho', _⟩ := eq_cons_of_linked_eq hr hothers (by decide) hrest'
        exact absurd (by rw [ho, ho']; rfl) (hsecond rfl)
      | automatic => exact absurd (List.cons.inj htext).1.symm hc
      | everything => exact absurd (List.cons.inj htext).1.symm hc

end Body

/-! ## Whole requests -/

/-- The printed loaders of a request. -/
def idents (p : Request) : List (List Char) := p.loaders.map fun spec => spec.toIdent.toList

theorem toList_chainText (resource : String) : ∀ loaders : List String,
    (chainText loaders resource).toList
      = linked '!' (loaders.map String.toList) resource.toList
  | [] => rfl
  | loader :: loaders => by
      have ih := toList_chainText resource loaders
      unfold chainText at ih ⊢
      simp only [List.foldr_cons, String.toList_append, ih, List.map_cons, linked_cons,
        List.append_assoc]
      rfl

theorem toList_toText (p : Request) :
    p.toText.toList = (matchText p.matchResource).toList
      ++ (p.suppression.mark.toList ++ linked '!' p.idents p.resource.toList) := by
  unfold toText idents
  rw [String.toList_append, String.toList_append, toList_chainText, List.map_map,
    List.append_assoc]
  rfl

namespace Settled

variable {context : String} {p : Request} (h : p.Settled context)

include h

theorem bang_notMem_idents : ∀ piece ∈ p.idents, '!' ∉ piece := by
  intro piece hp
  obtain ⟨spec, hs, rfl⟩ := List.mem_map.1 hp
  exact h.segment spec hs

/-- The request by what it is printed as. -/
theorem eq_of_idents :
    p = ⟨p.matchResource, p.suppression, p.idents.map LoaderSpec.ofChars,
      String.ofList p.resource.toList⟩ := by
  have hl : p.idents.map LoaderSpec.ofChars = p.loaders := by
    unfold idents
    rw [List.map_map]
    conv => rhs; rw [← List.map_id p.loaders]
    exact List.map_congr_left fun spec hs => h.reads spec hs
  rw [hl, String.ofList_toList]

theorem ident_eq_iff (name : String) (hn : '?' ∉ name.toList) (i : Nat) :
    p.idents[i]? = some name.toList ↔ p.loaders[i]? = some (LoaderSpec.named name) := by
  unfold idents
  rw [List.getElem?_map]
  cases hi : p.loaders[i]? with
  | none => simp
  | some spec =>
    have hspec := h.reads spec (List.mem_of_getElem? hi)
    simpa using LoaderSpec.toIdent_eq_iff hspec hn

theorem nil_mem_idents_iff : [] ∈ p.idents ↔ LoaderSpec.named "" ∈ p.loaders := by
  have hi : ∀ i : Nat, p.idents[i]? = some [] ↔ p.loaders[i]? = some (LoaderSpec.named "") :=
    h.ident_eq_iff "" (by decide)
  simp only [List.mem_iff_getElem?, hi]

/-- The match-resource of a printed request is read back. -/
theorem parse_toText_of_some {name : String} (hm : p.matchResource = some name) :
    parse context p.toText
      = ofBody (some name) (p.suppression.mark.toList ++ linked '!' p.idents p.resource.toList) := by
  obtain ⟨hne, hn, ha⟩ := h.matched name hm
  have htext : p.toText.toList = name.toList ++ '!' :: '=' :: '!'
      :: (p.suppression.mark.toList ++ linked '!' p.idents p.resource.toList) := by
    rw [toList_toText, hm]
    simp [matchText, String.toList_append]
  unfold parse
  rw [splitMatchResource_eq_some_iff.2 ⟨htext, hn, hne⟩]
  simp only [ha]

theorem parse_toText_eq_iff_idents :
    parse context p.toText = p
      ↔ [] ∉ p.idents
        ∧ (p.suppression = .nothing → p.idents[0]? ≠ some ['-'])
        ∧ (p.suppression = .nothing → p.matchResource = none → p.idents[1]? ≠ some ['=']) := by
  have hbody := ofBody_marked_eq_iff p.matchResource p.suppression h.bang_notMem_idents h.resource
  rw [← h.eq_of_idents] at hbody
  cases hm : p.matchResource with
  | some name =>
    rw [hm] at hbody
    rw [h.parse_toText_of_some hm, hbody]
    simp
  | none =>
    rw [hm] at hbody
    have htext : p.toText.toList
        = p.suppression.mark.toList ++ linked '!' p.idents p.resource.toList := by
      rw [toList_toText, hm]
      rfl
    have hsplit := fun hne =>
      splitMatchResource_marked_eq_none_iff p.suppression h.bang_notMem_idents h.resource hne
    unfold parse
    rw [htext]
    constructor
    · intro he
      split at he
      · next name rest _ =>
        have hmr := congrArg Request.matchResource he
        rw [hm] at hmr
        cases hmr
      · next hnone =>
        obtain ⟨hne, hdash⟩ := hbody.1 he
        exact ⟨hne, hdash, fun hs _ => (hsplit hne).1 hnone hs⟩
    · rintro ⟨hne, hdash, hmark⟩
      rw [(hsplit hne).2 fun hs => hmark hs rfl]
      exact hbody.2 ⟨hne, hdash⟩

end Settled

/-- A printed request reads back as itself unless one of its loaders is
empty, a `-` comes first in it, or a `=` comes second; the last two count
only where no mark, or neither mark nor match-resource, stands before
them. A relative match-resource is joined with the directory once. -/
theorem parse_toText_eq_iff {context : String}
    (habs : Path.isAbsolute context.toList = true) (hbang : '!' ∉ context.toList)
    (raw : String) :
    (parse context (parse context raw).toText = parse context raw
      ↔ LoaderSpec.named "" ∉ (parse context raw).loaders
        ∧ ((parse context raw).suppression = .nothing →
            (parse context raw).loaders[0]? ≠ some (LoaderSpec.named "-"))
        ∧ ((parse context raw).suppression = .nothing →
            (parse context raw).matchResource = none →
            (parse context raw).loaders[1]? ≠ some (LoaderSpec.named "=")))
    ∧ ∀ name rest : String, raw = name ++ "!=!" ++ rest → '!' ∉ name.toList →
        Path.isRelative name = true →
        (parse context raw).matchResource = some (Path.join context name)
        ∧ (parse context (parse context raw).toText).matchResource
            = some (Path.join context name) := by
  have h := settled_parse habs hbang raw
  constructor
  · rw [h.parse_toText_eq_iff_idents, h.nil_mem_idents_iff]
    have hdash := h.ident_eq_iff "-" (by decide) 0
    have hmark := h.ident_eq_iff "=" (by decide) 1
    have hdash' : (parse context raw).idents[0]? = some ['-']
        ↔ (parse context raw).loaders[0]? = some (LoaderSpec.named "-") := hdash
    have hmark' : (parse context raw).idents[1]? = some ['=']
        ↔ (parse context raw).loaders[1]? = some (LoaderSpec.named "=") := hmark
    simp only [ne_eq, hdash', hmark']
  · rintro name rest rfl hn hrel
    have hne : name.toList ≠ [] := by
      intro e
      unfold Path.isRelative at hrel
      rw [e] at hrel
      cases hrel
    have hm : (parse context (name ++ "!=!" ++ rest)).matchResource
        = some (Path.join context name) := by
      have hsplit : splitMatchResource (name ++ "!=!" ++ rest).toList
          = some (name.toList, rest.toList) :=
        splitMatchResource_eq_some_iff.2 ⟨by simp [String.toList_append], hn, hne⟩
      unfold parse
      rw [hsplit]
      unfold ofBody anchored
      simp only [String.ofList_toList, hrel, if_true]
    refine ⟨hm, ?_⟩
    rw [h.parse_toText_of_some hm]
    rfl

/-- A relative match-resource is kept through the round trip, and a `-?`
that comes first is not. -/
theorem parse_toText_relative_and_dash :
    Path.isAbsolute "/app".toList = true ∧ '!' ∉ "/app".toList
    ∧ parse "/app" (parse "/app" "./v.css!=!a?!=?!b??c!./d?e").toText
        = parse "/app" "./v.css!=!a?!=?!b??c!./d?e"
    ∧ (parse "/app" (parse "/app" "./v.css!=!a?!=?!b??c!./d?e").toText).matchResource
        = some "/app/v.css"
    ∧ parse "/app" (parse "/app" "-?!./d").toText ≠ parse "/app" "-?!./d" := by
  refine ⟨by decide, by decide, ?_, ?_, ?_⟩
  · exact (parse_toText_eq_iff (by decide) (by decide) _).1.2 ⟨by decide, by decide, by decide⟩
  · exact ((parse_toText_eq_iff (by decide) (by decide) _).2 "./v.css" "a?!=?!b??c!./d?e"
      (by decide) (by decide) (by decide)).2
  · intro h
    have := ((parse_toText_eq_iff (by decide) (by decide) _).1.1 h).2.1 (by decide)
    exact this (by decide)

end Request

end ImportChain
