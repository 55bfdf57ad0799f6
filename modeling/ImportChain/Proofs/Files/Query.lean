/-
ImportChain.Proofs.Files.Query — the query of a request does not count.

A request is sought by its path alone; the query is put after what is found
and told with it. So it is for a disk (`answer_eq_of_cutAs`), and so for
resolvers that remember answers, although they file them under the whole
request.

`answers_alike_but_query` is the main statement, about any two runs on one
disk: two questions about one path have answers that differ in the queries
alone (`AlikeBut`).
-/
import ImportChain.Proofs.Files.Candidates
import ImportChain.Proofs.Files.Recall
import ImportChain.Proofs.Loader.Search

namespace ImportChain

/-! ## Questions about one path -/

/-- Two questions about one path, each with a query of its own. Who asks does
not matter. -/
structure SamePath (path query query' : String) (c d : Call) : Prop where
  kind : c.kind = d.kind
  context : c.context = d.context
  options : c.options = d.options
  cut : Request.CutAs c.request path query
  cut' : Request.CutAs d.request path query'

/-- What is told of one file for two queries: the path and the manifest are the
same, and each has its own query. -/
structure SameFile (file query query' : String) (data data' : Json) : Prop where
  path : data.field? "path" = some (.str file)
  path' : data'.field? "path" = some (.str file)
  description : data.field? "descriptionFilePath" = data'.field? "descriptionFilePath"
  query : data.field? "query" = some (.str query)
  query' : data'.field? "query" = some (.str query')

/-- Two answers that differ in two queries alone: both fail with one message,
both leave the request out, or both tell of one file. -/
inductive AlikeBut (query query' : String) :
    Except ResolutionError Resolution → Except ResolutionError Resolution → Prop where
  | failed {e e' : ResolutionError} (context : e.context = e'.context)
    (message : e.message = e'.message) : AlikeBut query query' (.error e) (.error e')
  | ignored : AlikeBut query query' (.ok .ignored) (.ok .ignored)
  | resolved {file : String} {data data' : Json} (told : SameFile file query query' data data') :
    AlikeBut query query' (.ok (.resolved (file ++ query) (some data)))
      (.ok (.resolved (file ++ query') (some data')))

section Answers

variable {v : View} {c d : Call} {path query query' : String}

theorem sameFile_dataOf (v : View) (file query query' : String) :
    SameFile file query query' (v.dataOf file query) (v.dataOf file query') := by
  unfold View.dataOf
  cases (Location.parent? file).bind (Manifest.nearest? v) <;> exact ⟨rfl, rfl, rfl, rfl, rfl⟩

/-- A question is answered by a search for its path. -/
theorem answer_eq_of_cutAs (h : Request.CutAs c.request path query) :
    v.answer c
      = match Search.search v (.ofOptions c.kind c.options) c.context path with
        | .ok found => .ok (.ofFound v query found)
        | .error e => .error ⟨c.request, c.context, e.text⟩ := by
  have hsplit : Request.splitQuery c.request = (path, query) := Request.splitQuery_eq_iff.2 h
  unfold View.answer
  exact hsplit ▸ rfl

/-- On any disk, two questions about one path are answered alike. -/
theorem alikeBut_answer (v : View) (h : SamePath path query query' c d) :
    AlikeBut query query' (v.answer c) (v.answer d) := by
  rw [answer_eq_of_cutAs h.cut, answer_eq_of_cutAs h.cut', ← h.kind, ← h.options, ← h.context]
  cases Search.search v (.ofOptions c.kind c.options) c.context path with
  | error e => exact .failed rfl rfl
  | ok found =>
    cases found with
    | ignored => exact .ignored
    | file file => exact .resolved (sameFile_dataOf v file query query')

end Answers

/-! ## Runs -/

namespace Resolvers

variable {v : View} {r r' : Resolvers} {log log' : List Asked}

/-- **The query never influences which file is found.** In any two runs on one
disk, whatever the resolvers remember when they are asked, two questions about
one path fail alike, are both left out, or are both answered with one file, to
which each adds its own query. -/
theorem answers_alike_but_query (h : Session v r log) (h' : Session v r' log')
    (hkeys : ∀ asked ∈ log, asked.call.options.distinctKeys = true)
    (hkeys' : ∀ asked ∈ log', asked.call.options.distinctKeys = true) :
    ∀ asked ∈ log, ∀ asked' ∈ log', ∀ path query query',
      SamePath path query query' asked.call asked'.call →
        AlikeBut query query' asked.answer asked'.answer := by
  intro asked hasked asked' hasked' path query query' hsame
  rw [(h.answers hkeys).2 asked hasked, (h'.answers hkeys').2 asked' hasked']
  exact alikeBut_answer v hsame

/-- A package that leaves out one of its two files. -/
def queriedDisk : View :=
  .ofTexts ["/p"]
    [("/p/package.json", Json.canonical (.obj [("browser", .obj [("./b.js", .bool false)])])),
      ("/p/a.js", ""), ("/p/b.js", "")]

def queriedCall (request : String) : Call := ⟨.normal, {}, "/p", request, .empty⟩

/-- A question with a query full of slashes and marks. -/
def markedCall : Call := queriedCall "/p/a?../b.js?"

/-- A resolver that was asked this question. -/
def markedRun : Resolvers × List Asked :=
  (((create {} 0).ask queriedDisk 0 markedCall).2,
    [⟨0, markedCall, ((create {} 0).ask queriedDisk 0 markedCall).1⟩])

/-- The question asked again is answered from memory, and the one without a query
by a new resolver. -/
theorem answers_alike_but_query_of_markedRun :
    Session queriedDisk markedRun.1 markedRun.2
      ∧ SamePath "/p/a" "?../b.js?" "" markedCall (queriedCall "/p/a")
      ∧ AlikeBut "?../b.js?" "" (markedRun.1.ask queriedDisk 0 markedCall).1
          ((create {} 0).ask queriedDisk 0 (queriedCall "/p/a")).1
      ∧ (markedRun.1.memory 0).get? markedCall.memoKey
        = some (.resolved "/p/a.js?../b.js?" (some (queriedDisk.dataOf "/p/a.js" "?../b.js?"))) := by
  have hnew : Session queriedDisk (create {} 0) [] := Session.start.create (by decide)
  have hmarked : Session queriedDisk markedRun.1 markedRun.2 :=
    hnew.ask List.mem_cons_self markedCall
  have hsame : SamePath "/p/a" "?../b.js?" "" markedCall (queriedCall "/p/a") :=
    ⟨rfl, rfl, rfl, Request.splitQuery_eq_iff.1 (by decide +kernel),
      Request.splitQuery_eq_iff.1 (by decide +kernel)⟩
  have hagain := hmarked.ask List.mem_cons_self markedCall
  have hfresh := hnew.ask List.mem_cons_self (queriedCall "/p/a")
  exact ⟨hmarked, hsame,
    answers_alike_but_query hagain hfresh (by decide +kernel) (by decide +kernel)
      _ List.mem_cons_self _ List.mem_cons_self _ _ _ hsame,
    by decide +kernel⟩

end Resolvers

end ImportChain
