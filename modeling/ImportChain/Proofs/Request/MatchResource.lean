/-
ImportChain.Proofs.Request.MatchResource — a match-resource and its query.

A match-resource is joined with the directory as one text, so the lexical
normal form reaches into its query. `query_of_matchResource` says when the
query is kept: exactly if it makes no detours. A match-resource that is not
relative always keeps it.
-/
import ImportChain.Proofs.Path.Query
import ImportChain.Proofs.Request.RoundTrip

namespace ImportChain

namespace Request

open Text

theorem matchResource_parse {context name : String} (rest : String) (hne : name ≠ "")
    (h : '!' ∉ name.toList) :
    (parse context (name ++ "!=!" ++ rest)).matchResource = some (anchored context name.toList) := by
  have hsplit : splitMatchResource (name ++ "!=!" ++ rest).toList = some (name.toList, rest.toList) :=
    splitMatchResource_eq_some_iff.2
      ⟨by simp, h, fun he => hne (String.toList_eq_nil_iff.1 he)⟩
  unfold parse
  rw [hsplit]
  rfl

/-! ## Match-resources with a query -/

section Joined

variable {context p : String} (hr : Path.isRelative p = true) (hcontext : '?' ∉ context.toList)
  (hmark : '?' ∉ p.toList)

include hcontext hmark in
theorem query_notMem_attach : '?' ∉ Path.attach context.toList p.toList := by
  intro hm
  rcases Path.mem_attach hm with hm | hm | hm
  · cases hm
  · exact hcontext hm
  · exact hmark hm

include hr in
theorem toList_join_query (context text : String) :
    (Path.join context (p ++ ("?" ++ text))).toList
      = Path.normalizeChars (Path.attach context.toList p.toList ++ '?' :: text.toList) := by
  unfold Path.join
  rw [String.toList_ofList, ← Path.attach_append _ hr]
  simp

include hr hcontext hmark in
/-- The query of a relative path without detours in it is there after joining. -/
theorem splitQuery_join_of_forall_isName {text : String}
    (hn : ∀ piece ∈ (splitOn '/' ('?' :: text.toList)).tail, Path.IsName piece) :
    splitQuery (Path.join context (p ++ ("?" ++ text)))
      = (String.ofList (Path.keepingLast (Path.attach context.toList p.toList)), "?" ++ text) := by
  have hnormal := Path.normalizeChars_append_query (Path.attach_ne_nil context.toList hr) hn
  rw [splitQuery_of_append ((toList_join_query hr context text).trans hnormal)
    (Path.mark_notMem_keepingLast (query_notMem_attach hcontext hmark))]
  simp

include hr hcontext hmark in
theorem splitQuery_join_snd_eq_iff (text : String) :
    (splitQuery (Path.join context (p ++ ("?" ++ text)))).2 = "?" ++ text
      ↔ ∀ piece ∈ (splitOn '/' ('?' :: text.toList)).tail, Path.IsName piece := by
  refine ⟨fun he => ?_, fun hn => ?_⟩
  · have hkept := congrArg String.toList he
    rw [toList_splitQuery_snd, toList_join_query hr, String.toList_append] at hkept
    exact Path.isName_of_dropWhile_normalizeChars (Path.attach_ne_nil _ hr)
      (query_notMem_attach hcontext hmark) hkept
  · rw [splitQuery_join_of_forall_isName hr hcontext hmark hn]

theorem join_of_isName_lastPiece (context : String) {p : String}
    (h : Path.IsName (Path.lastPiece p.toList)) :
    Path.join context p
      = String.ofList (Path.keepingLast (Path.attach context.toList p.toList)) := by
  rw [← Path.lastPiece_attach context.toList] at h
  exact congrArg String.ofList (Path.normalizeChars_of_isName_lastPiece h)

include hcontext hmark in
theorem splitQuery_join_of_notMem : splitQuery (Path.join context p) = (Path.join context p, "") := by
  refine splitQuery_of_notMem fun hm => ?_
  rcases Path.mem_join hm with hm | hm | hm | hm
  · cases hm
  · cases hm
  · exact hcontext hm
  · exact hmark hm

end Joined

/-- The query of a relative match-resource is kept exactly if none of its
pieces after the first is empty, `.` or `..`, and then the path before it is
the joined one if that ends in a name. A match-resource that is not relative
is kept as it is. -/
theorem query_of_matchResource {context p q : String} (rest : String)
    (hp : '!' ∉ p.toList) (hmark : '?' ∉ p.toList) (hq : '!' ∉ q.toList)
    (hquery : q = "" ∨ ∃ text, q = "?" ++ text) :
    (Path.isRelative p = true → '?' ∉ context.toList →
      (parse context (p ++ q ++ "!=!" ++ rest)).matchResource = some (Path.join context (p ++ q))
      ∧ ((splitQuery (Path.join context (p ++ q))).2 = q
          ↔ ∀ piece ∈ (splitOn '/' q.toList).tail, Path.IsName piece)
      ∧ (q = "" ∨ Path.IsName (Path.lastPiece p.toList) →
          (splitQuery (Path.join context (p ++ q)) = (Path.join context p, q)
            ↔ ∀ piece ∈ (splitOn '/' q.toList).tail, Path.IsName piece)))
    ∧ (Path.isRelative p = false → p ++ q ≠ "" →
      (parse context (p ++ q ++ "!=!" ++ rest)).matchResource = some (p ++ q)
      ∧ splitQuery (p ++ q) = (p, q)) := by
  have hbang : '!' ∉ (p ++ q).toList := by
    rw [String.toList_append, List.mem_append]
    exact fun hm => hm.elim hp hq
  have hrelative : Path.isRelative (p ++ q) = Path.isRelative p := by
    rcases hquery with rfl | ⟨text, rfl⟩
    · rw [String.append_empty]
    · exact Path.isRelative_append_query p text
  refine ⟨fun hr hcontext => ⟨?_, ?_⟩, fun hr hne => ⟨?_, ?_⟩⟩
  · have hne : p ++ q ≠ "" := by
      rintro he
      rw [he, hr] at hrelative
      cases hrelative
    rw [matchResource_parse rest hne hbang, anchored, String.ofList_toList, hrelative, if_pos hr]
  · rcases hquery with rfl | ⟨text, rfl⟩
    · rw [String.append_empty, splitQuery_join_of_notMem hcontext hmark]
      simp [splitOn]
    · have hiff := splitQuery_join_snd_eq_iff hr hcontext hmark text
      rw [show ("?" ++ text).toList = '?' :: text.toList by simp]
      refine ⟨hiff, fun hlast => ⟨fun he => hiff.1 (by rw [he]), fun hn => ?_⟩⟩
      rw [splitQuery_join_of_forall_isName hr hcontext hmark hn,
        join_of_isName_lastPiece context (hlast.resolve_left (by simp))]
  · rw [matchResource_parse rest hne hbang, anchored, String.ofList_toList, hrelative, hr]
    rfl
  · rcases hquery with rfl | ⟨text, rfl⟩
    · rw [String.append_empty, splitQuery_of_notMem hmark]
    · have htext : (p ++ ("?" ++ text)).toList = p.toList ++ '?' :: text.toList := by simp
      rw [splitQuery_of_append htext hmark]
      simp

/-- A style sheet with the place of its source in its query. -/
theorem query_of_matchResource_of_sourceMap :
    Path.isRelative "./a.css" = true
    ∧ (parse "/app" ("./a.css" ++ "?from=lib/a.less" ++ "!=!" ++ "./b.js")).matchResource
      = some (Path.join "/app" ("./a.css" ++ "?from=lib/a.less"))
    ∧ splitQuery (Path.join "/app" ("./a.css" ++ "?from=lib/a.less"))
      = ("/app/a.css", "?from=lib/a.less") := by
  have hr : Path.isRelative "./a.css" = true := by decide +kernel
  obtain ⟨hname, -, hsplit⟩ := (@query_of_matchResource "/app" "./a.css" "?from=lib/a.less"
    "./b.js" (by decide +kernel) (by decide +kernel) (by decide +kernel)
    (Or.inr ⟨"from=lib/a.less", by decide +kernel⟩)).1 hr (by decide +kernel)
  have hjoin : Path.join "/app" "./a.css" = "/app/a.css" := by decide +kernel
  rw [← hjoin]
  exact ⟨hr, hname, (hsplit (Or.inr (by decide +kernel))).2 (by decide +kernel)⟩

/-- The address in the query of a relative match-resource loses a `/`, while
one that is not relative keeps its address. -/
theorem query_of_matchResource_collapsed :
    (parse "/app" "./a.css?from=http://h/a!=!./b.js").matchResource
      = some "/app/a.css?from=http:/h/a"
    ∧ splitQuery "/app/a.css?from=http:/h/a" ≠ (Path.join "/app" "./a.css", "?from=http://h/a")
    ∧ (parse "/app" "/app/a.css?from=http://h/a!=!./b.js").matchResource
      = some "/app/a.css?from=http://h/a"
    ∧ splitQuery "/app/a.css?from=http://h/a" = (Path.join "/app" "./a.css", "?from=http://h/a") := by
  decide +kernel

end Request

end ImportChain
