/-
ImportChain.Proofs.Files.Memo — remembered answers are the ones that would
be found.

The key of a question stands for all that decides its answer: two questions
share a key exactly if they differ in nothing but who asks and the order of
fields in their options (`memoKey_eq_iff`), and such questions have one
answer on any disk (`answer_eq_of_sameQuestion`), since the order of fields
is lost on the settings of a lookup (`Lookup.ofOptions_eq_of_reordered`).

`Memo.Records` ties a memory to the questions that it was asked, and is kept
by every question (`Memo.Records.ask`). A resolver is a handle to a memory
that all its clones share; `answers_of_session` is the main statement, about
every run of questions through any of them.
-/
import ImportChain.Files.Memo
import ImportChain.Proofs.Json.RoundTrip

namespace ImportChain

/-! ## Settings -/

namespace Lookup

variable {options a b : Json}

theorem texts_settled (h : options.distinctKeys = true) (key : String) (default : List String) :
    texts options.settled key default = texts options key default := by
  have hitems : ((options.field? key).map Json.settled).bind Json.arr?
      = ((options.field? key).bind Json.arr?).map (·.map Json.settled) := by
    cases options.field? key with
    | none => rfl
    | some value => exact Json.arr?_settled value
  rw [texts, texts, Json.field?_settled h, hitems]
  cases (options.field? key).bind Json.arr? with
  | none => rfl
  | some items =>
    simp only [Option.map_some, List.filterMap_map]
    exact List.filterMap_congr fun item _ => Json.str?_settled item

theorem ofOptions_settled (h : options.distinctKeys = true) (kind : ResolverKind) :
    ofOptions kind options.settled = ofOptions kind options := by
  have haliases : (options.settled.field? "alias").map Json.settled
      = (options.field? "alias").map Json.settled := by
    rw [Json.field?_settled h, Option.map_map]
    exact Option.map_congr fun value _ => Json.settled_settled value
  simp only [ofOptions, texts_settled h, haliases]

/-- Options in another order make the same settings. -/
theorem ofOptions_eq_of_reordered (ha : a.distinctKeys = true) (hb : b.distinctKeys = true)
    (h : Json.Reordered a b) (kind : ResolverKind) : ofOptions kind a = ofOptions kind b := by
  rw [← ofOptions_settled ha, Json.settled_eq_of_reordered ha h, ofOptions_settled hb]

end Lookup

/-! ## Questions -/

/-- Two questions that differ in nothing but who asks and the order of fields
in the options. -/
structure SameQuestion (c d : Call) : Prop where
  kind : c.kind = d.kind
  context : c.context = d.context
  request : c.request = d.request
  options : Json.Reordered c.options d.options

/-- Whether the keys in the options are distinct and their numbers whole. -/
def Call.isPlain (call : Call) : Bool := call.options.distinctKeys && call.options.wholeNumbers

section Questions

variable {c d : Call}

theorem memoKey_eq_iff (hc : c.isPlain = true) (hd : d.isPlain = true) :
    c.memoKey = d.memoKey ↔ SameQuestion c d := by
  obtain ⟨hkeysC, hwholeC⟩ := Bool.and_eq_true_iff.1 hc
  obtain ⟨hkeysD, hwholeD⟩ := Bool.and_eq_true_iff.1 hd
  have hoptions : c.options.canonical = d.options.canonical
      ↔ Json.Reordered c.options d.options := by
    rw [Json.canonical_eq_iff_settled_eq hwholeC hwholeD,
      Json.reordered_iff_settled_eq hkeysC hkeysD]
  simp only [Call.memoKey, MemoKey.mk.injEq, hoptions]
  exact ⟨fun ⟨hkind, hcontext, hrequest, hoptions⟩ => ⟨hkind, hcontext, hrequest, hoptions⟩,
    fun h => ⟨h.kind, h.context, h.request, h.options⟩⟩

/-- On any disk, the same question has the same answer. -/
theorem answer_eq_of_sameQuestion (v : View) (hc : c.isPlain = true) (hd : d.isPlain = true)
    (h : SameQuestion c d) : v.answer c = v.answer d := by
  have hlookup : Lookup.ofOptions c.kind c.options = Lookup.ofOptions d.kind d.options := by
    rw [h.kind]
    exact Lookup.ofOptions_eq_of_reordered (Bool.and_eq_true_iff.1 hc).1
      (Bool.and_eq_true_iff.1 hd).1 h.options d.kind
  simp only [View.answer, hlookup, h.context, h.request]

end Questions

/-! ## One memory -/

namespace Memo

variable {v : View} {m : Memo} {calls remembered : List Call} {call : Call} {answer : Resolution}

/-- A memory that was asked some questions holds those that had an answer,
each of them once. -/
structure Records (v : View) (m : Memo) (calls remembered : List Call) : Prop where
  entries : m.entries.map (fun entry => (entry.1, .ok entry.2))
    = remembered.map fun c => (c.memoKey, v.answer c)
  distinct : remembered.Pairwise fun c d => ¬ SameQuestion c d
  asked : ∀ c ∈ remembered, c ∈ calls
  complete : ∀ c ∈ calls, ∀ answer, v.answer c = .ok answer → ∃ d ∈ remembered, SameQuestion c d

theorem records_empty (v : View) : Records v empty [] [] where
  entries := rfl
  distinct := .nil
  asked _ h := nomatch h
  complete _ h := nomatch h

theorem Records.size_eq (h : m.Records v calls remembered) : m.size = remembered.length := by
  simpa [size] using congrArg List.length h.entries

/-- A question that is remembered has an answer. -/
theorem Records.answered (h : m.Records v calls remembered) {c : Call} (hc : c ∈ remembered) :
    ∃ answer, v.answer c = .ok answer := by
  have hmem : (c.memoKey, v.answer c) ∈ m.entries.map fun entry => (entry.1, .ok entry.2) :=
    h.entries ▸ List.mem_map_of_mem hc
  obtain ⟨entry, -, heq⟩ := List.mem_map.1 hmem
  exact ⟨entry.2, (Prod.mk.inj heq).2.symm⟩

/-- What is found was the answer to a question that is remembered. -/
theorem Records.of_get?_eq_some (h : m.Records v calls remembered) {key : MemoKey}
    (hget : m.get? key = some answer) :
    ∃ c ∈ remembered, c.memoKey = key ∧ v.answer c = .ok answer := by
  obtain ⟨entry, hfind, rfl⟩ := Option.map_eq_some_iff.1 hget
  have hkey : entry.1 = key := by simpa using List.find?_some hfind
  have hmem : (entry.1, .ok entry.2) ∈ remembered.map fun c => (c.memoKey, v.answer c) :=
    h.entries ▸ List.mem_map_of_mem (List.mem_of_find?_eq_some hfind)
  obtain ⟨c, hc, hentry⟩ := List.mem_map.1 hmem
  obtain ⟨hmemo, hanswer⟩ := Prod.mk.inj hentry
  exact ⟨c, hc, hmemo.trans hkey, hanswer⟩

/-- Nothing is found only under the key of no question that is remembered. -/
theorem Records.of_get?_eq_none (h : m.Records v calls remembered) {key : MemoKey}
    (hget : m.get? key = none) : ∀ c ∈ remembered, c.memoKey ≠ key := by
  intro c hc hkey
  have hmem : (c.memoKey, v.answer c) ∈ m.entries.map fun entry => (entry.1, .ok entry.2) :=
    h.entries ▸ List.mem_map_of_mem hc
  obtain ⟨entry, hentry, heq⟩ := List.mem_map.1 hmem
  have hnone := List.find?_eq_none.1 (Option.map_eq_none_iff.1 hget) entry hentry
  exact hnone (by simpa using (Prod.mk.inj heq).1.trans hkey)

/-- A question that is asked again in other words changes nothing in what a
memory has to hold. -/
theorem Records.cons_of_sameQuestion (h : m.Records v calls remembered) {d : Call}
    (hd : d ∈ remembered) (hsame : SameQuestion call d) :
    m.Records v (call :: calls) remembered where
  entries := h.entries
  distinct := h.distinct
  asked c hc := List.mem_cons_of_mem _ (h.asked c hc)
  complete c hc answer hanswer := by
    rcases List.mem_cons.1 hc with rfl | hc
    · exact ⟨d, hd, hsame⟩
    · exact h.complete c hc answer hanswer

/-- A question without an answer is not held. -/
theorem Records.cons_of_error (h : m.Records v calls remembered) {e : ResolutionError}
    (hanswer : v.answer call = .error e) : m.Records v (call :: calls) remembered where
  entries := h.entries
  distinct := h.distinct
  asked c hc := List.mem_cons_of_mem _ (h.asked c hc)
  complete c hc answer hok := by
    rcases List.mem_cons.1 hc with rfl | hc
    · rw [hanswer] at hok
      cases hok
    · exact h.complete c hc answer hok

/-- A new question with an answer is held from then on. -/
theorem Records.cons_of_ok (h : m.Records v calls remembered) (hanswer : v.answer call = .ok answer)
    (hnew : ∀ c ∈ remembered, ¬ SameQuestion call c) :
    Records v ⟨(call.memoKey, answer) :: m.entries⟩ (call :: calls) (call :: remembered) where
  entries := by simp only [List.map_cons, h.entries, hanswer]
  distinct := List.pairwise_cons.2 ⟨hnew, h.distinct⟩
  asked c hc := by
    rcases List.mem_cons.1 hc with rfl | hc
    · exact List.mem_cons_self
    · exact List.mem_cons_of_mem _ (h.asked c hc)
  complete c hc answer' hok := by
    rcases List.mem_cons.1 hc with rfl | hc
    · exact ⟨c, List.mem_cons_self, ⟨rfl, rfl, rfl, .refl _⟩⟩
    · obtain ⟨d, hd, hsame⟩ := h.complete c hc answer' hok
      exact ⟨d, List.mem_cons_of_mem _ hd, hsame⟩

/-- One question gets the answer that the disk has for it, and leaves a memory
that holds what it should. -/
theorem Records.ask (h : m.Records v calls remembered)
    (hplain : ∀ c ∈ call :: calls, c.isPlain = true) :
    (m.ask v.answer call).1 = v.answer call
      ∧ ∃ remembered', (m.ask v.answer call).2.Records v (call :: calls) remembered' := by
  obtain ⟨hcall, hcalls⟩ := List.forall_mem_cons.1 hplain
  cases hget : m.get? call.memoKey with
  | some answer =>
    -- The answer was found for another question with the same key, which is why
    -- the key has to say all that an answer depends on.
    obtain ⟨d, hd, hkey, hanswer⟩ := h.of_get?_eq_some hget
    have hplainD := hcalls d (h.asked d hd)
    have hsame := (memoKey_eq_iff hcall hplainD).1 hkey.symm
    simp only [Memo.ask, hget]
    rw [answer_eq_of_sameQuestion v hcall hplainD hsame]
    exact ⟨hanswer.symm, remembered, h.cons_of_sameQuestion hd hsame⟩
  | none =>
    cases hanswer : v.answer call with
    | error e =>
      simp only [Memo.ask, hget, hanswer]
      exact ⟨trivial, remembered, h.cons_of_error hanswer⟩
    | ok answer =>
      simp only [Memo.ask, hget, hanswer]
      refine ⟨trivial, call :: remembered, h.cons_of_ok hanswer fun c hc hsame => ?_⟩
      have hkey := (memoKey_eq_iff hcall (hcalls c (h.asked c hc))).2 hsame
      exact h.of_get?_eq_none hget c hc hkey.symm

/-- A question that fails leaves the memory as it was. -/
theorem ask_of_error {delegate : Delegate} {e : ResolutionError}
    (h : (m.ask delegate call).1 = .error e) : (m.ask delegate call).2 = m := by
  unfold ask at h ⊢
  cases hget : m.get? call.memoKey with
  | some answer => rfl
  | none =>
    rw [hget] at h
    cases hanswer : delegate call with
    | ok answer =>
      rw [hanswer] at h
      cases h
    | error e => rfl

/-- A memory without answers gives the ones that the disk has. -/
theorem ask_empty (delegate : Delegate) (call : Call) :
    (empty.ask delegate call).1 = delegate call := by
  have hget : empty.get? call.memoKey = none := rfl
  simp only [ask, hget]
  cases delegate call with
  | ok answer => rfl
  | error e => rfl

end Memo

/-! ## Resolvers and their clones -/

/-- Resolvers over one disk. Each is a handle to a memory, and its clones are
handles to the same one. -/
structure Resolvers where
  handles : List Nat := []
  memory : Nat → Memo := fun _ => .empty

/-- A question that was asked through a handle, and the answer. -/
structure Asked where
  handle : Nat
  call : Call
  answer : Except ResolutionError Resolution

namespace Resolvers

/-- The resolvers with a new one, whose memory is at an address. -/
def create (r : Resolvers) (address : Nat) : Resolvers :=
  ⟨address :: r.handles, Function.update r.memory address .empty⟩

/-- The resolvers with one more handle to a memory. -/
def clone (r : Resolvers) (handle : Nat) : Resolvers := { r with handles := handle :: r.handles }

/-- A question asked through a handle. -/
def ask (r : Resolvers) (v : View) (handle : Nat) (call : Call) :
    Except ResolutionError Resolution × Resolvers :=
  let (answer, m) := (r.memory handle).ask v.answer call
  (answer, { r with memory := Function.update r.memory handle m })

/-- What can happen to resolvers over a disk, with the questions asked, the
last one first. -/
inductive Session (v : View) : Resolvers → List Asked → Prop where
  | start : Session v {} []
  | create {r : Resolvers} {log : List Asked} {address : Nat} (earlier : Session v r log)
    (free : address ∉ r.handles) : Session v (r.create address) log
  | clone {r : Resolvers} {log : List Asked} {handle : Nat} (earlier : Session v r log)
    (held : handle ∈ r.handles) : Session v (r.clone handle) log
  | ask {r : Resolvers} {log : List Asked} {handle : Nat} (earlier : Session v r log)
    (held : handle ∈ r.handles) (call : Call) :
    Session v (r.ask v handle call).2 (⟨handle, call, (r.ask v handle call).1⟩ :: log)

variable {v : View} {r : Resolvers} {log : List Asked}

/-- The questions that were asked through a handle or its clones. -/
def askedAt (handle : Nat) (log : List Asked) : List Call :=
  (log.filter (·.handle = handle)).map (·.call)

theorem mem_askedAt_iff {handle : Nat} {c : Call} :
    c ∈ askedAt handle log ↔ ∃ asked ∈ log, asked.handle = handle ∧ asked.call = c := by
  simp [askedAt, and_assoc]

/-- What resolvers keep to: every memory records what was asked of it, every
answer was the one that the disk has, and no one asks but through a handle. -/
structure Sound (v : View) (r : Resolvers) (log : List Asked) : Prop where
  records : ∀ handle, ∃ remembered, (r.memory handle).Records v (askedAt handle log) remembered
  answered : ∀ asked ∈ log, asked.answer = v.answer asked.call
  held : ∀ asked ∈ log, asked.handle ∈ r.handles

theorem Sound.start (v : View) : Sound v {} [] where
  records _ := ⟨[], Memo.records_empty v⟩
  answered _ h := nomatch h
  held _ h := nomatch h

theorem Sound.create (h : Sound v r log) {address : Nat} (free : address ∉ r.handles) :
    Sound v (r.create address) log where
  records handle := by
    by_cases he : handle = address
    · have hnone : askedAt handle log = [] := by
        refine List.eq_nil_iff_forall_not_mem.2 fun c hc => ?_
        obtain ⟨asked, hasked, hhandle, -⟩ := mem_askedAt_iff.1 hc
        exact free (he ▸ hhandle ▸ h.held asked hasked)
      have hempty : (r.create address).memory handle = .empty := he ▸ Function.update_self ..
      rw [hnone, hempty]
      exact ⟨[], Memo.records_empty v⟩
    · have hkept : (r.create address).memory handle = r.memory handle := Function.update_of_ne he ..
      rw [hkept]
      exact h.records handle
  answered := h.answered
  held asked hasked := List.mem_cons_of_mem _ (h.held asked hasked)

theorem Sound.clone (h : Sound v r log) (handle : Nat) : Sound v (r.clone handle) log where
  records := h.records
  answered := h.answered
  held asked hasked := List.mem_cons_of_mem _ (h.held asked hasked)

theorem Sound.ask (h : Sound v r log) {handle : Nat} (held : handle ∈ r.handles) {call : Call}
    (hplain : call.isPlain = true) (hlog : ∀ asked ∈ log, asked.call.isPlain = true) :
    Sound v (r.ask v handle call).2 (⟨handle, call, (r.ask v handle call).1⟩ :: log) := by
  have hcalls : ∀ c ∈ call :: askedAt handle log, c.isPlain = true := by
    refine List.forall_mem_cons.2 ⟨hplain, fun c hc => ?_⟩
    obtain ⟨asked, hasked, -, rfl⟩ := mem_askedAt_iff.1 hc
    exact hlog asked hasked
  obtain ⟨remembered, hrecords⟩ := h.records handle
  obtain ⟨hanswer, hafter⟩ := hrecords.ask hcalls
  constructor
  · intro other
    -- Only the memory that was asked changes, and only its questions get one more.
    by_cases he : other = handle
    · subst he
      simpa [Resolvers.ask, askedAt] using hafter
    · have hkept : (r.ask v handle call).2.memory other = r.memory other :=
        Function.update_of_ne he ..
      have hsame : askedAt other (⟨handle, call, (r.ask v handle call).1⟩ :: log)
          = askedAt other log := by
        simp [askedAt, Ne.symm he]
      rw [hkept, hsame]
      exact h.records other
  · exact List.forall_mem_cons.2 ⟨hanswer, h.answered⟩
  · exact List.forall_mem_cons.2 ⟨held, h.held⟩

theorem Session.sound (h : Session v r log) (hplain : ∀ asked ∈ log, asked.call.isPlain = true) :
    Sound v r log := by
  induction h with
  | start => exact Sound.start v
  | create _ free ih => exact (ih hplain).create free
  | clone _ _ ih => exact (ih hplain).clone _
  | ask _ held call ih =>
    obtain ⟨hcall, hlog⟩ := List.forall_mem_cons.1 hplain
    exact (ih hlog).ask held hcall hlog

/-- A question that fails leaves all memories as they were. -/
theorem ask_of_error {handle : Nat} {call : Call} {e : ResolutionError}
    (h : (r.ask v handle call).1 = .error e) : (r.ask v handle call).2 = r := by
  have hmemory : ((r.memory handle).ask v.answer call).2 = r.memory handle := Memo.ask_of_error h
  simp only [ask, hmemory, Function.update_eq_self]

/-- Remembered answers are the ones that would be found: whatever is asked
through resolvers and their clones, each question gets the answer of a
resolver without memory, one that fails changes nothing, and a resolver
remembers as many answers as there are different questions that it or a
clone of it had an answer for. -/
theorem answers_of_session (h : Session v r log)
    (hplain : ∀ asked ∈ log, asked.call.isPlain = true) :
    (∀ asked ∈ log, asked.answer = (Memo.empty.ask v.answer asked.call).1)
      ∧ (∀ handle ∈ r.handles, ∀ call e, (r.ask v handle call).1 = .error e →
        (r.ask v handle call).2 = r)
      ∧ ∀ handle ∈ r.handles, ∃ questions : List Call,
        (questions.Pairwise fun c d => ¬ SameQuestion c d)
          ∧ (∀ c ∈ questions, ∃ asked ∈ log,
            asked.handle = handle ∧ asked.call = c ∧ asked.answer.isOk = true)
          ∧ (∀ asked ∈ log, asked.handle = handle → asked.answer.isOk = true →
            ∃ c ∈ questions, SameQuestion asked.call c)
          ∧ (r.memory handle).size = questions.length := by
  have hsound := h.sound hplain
  refine ⟨fun asked hasked => ?_, fun _ _ _ _ => ask_of_error, fun handle _ => ?_⟩
  · rw [hsound.answered asked hasked, Memo.ask_empty]
  · obtain ⟨questions, hrecords⟩ := hsound.records handle
    refine ⟨questions, hrecords.distinct, fun c hc => ?_, fun asked hasked hhandle hok => ?_,
      hrecords.size_eq⟩
    · obtain ⟨asked, hasked, hhandle, rfl⟩ := mem_askedAt_iff.1 (hrecords.asked c hc)
      refine ⟨asked, hasked, hhandle, rfl, ?_⟩
      obtain ⟨answer, hanswer⟩ := hrecords.answered hc
      rw [hsound.answered asked hasked, hanswer]
      rfl
    · have hcall := mem_askedAt_iff.2 ⟨asked, hasked, hhandle, rfl⟩
      cases hanswer : v.answer asked.call with
      | ok answer => exact hrecords.complete asked.call hcall answer hanswer
      | error e =>
        rw [hsound.answered asked hasked, hanswer] at hok
        cases hok

/-- A disk with one file. -/
def oneFile : View where
  isFile place := place = "/d/./a.js"
  isDir place := place = "/d"
  read? _ := none
  canonical? _ := some "/d/a.js"

/-- A question about the file. -/
def fileCall : Call :=
  ⟨.normal, {}, "/d", "./a",
    .obj [("extensions", .arr [.str ".js"]), ("alias", .obj [("b", .bool false), ("a", .null)])]⟩

/-- The same question by somebody else, with the options in another order. -/
def otherFileCall : Call :=
  ⟨.normal, ⟨some "/d/b.js", none⟩, "/d", "./a",
    .obj [("alias", .obj [("a", .null), ("b", .bool false)]), ("extensions", .arr [.str ".js"])]⟩

def missingFileCall : Call := { fileCall with request := "./b" }

/-- A resolver with a clone, after three questions. -/
def oneFileRun : Resolvers × List Asked :=
  [fileCall, otherFileCall, missingFileCall].foldl
    (fun (r, log) call => ((r.ask oneFile 0 call).2, ⟨0, call, (r.ask oneFile 0 call).1⟩ :: log))
    ((Resolvers.create {} 0).clone 0, [])

theorem answers_of_oneFileRun :
    Session oneFile oneFileRun.1 oneFileRun.2
      ∧ (∀ asked ∈ oneFileRun.2, asked.call.isPlain = true)
      ∧ (∀ asked ∈ oneFileRun.2, asked.answer = (Memo.empty.ask oneFile.answer asked.call).1)
      ∧ oneFileRun.2.map (·.answer.isOk) = [false, true, true]
      ∧ ∃ questions : List Call, questions.length = 1
        ∧ ∀ asked ∈ oneFileRun.2, asked.handle = 0 → asked.answer.isOk = true →
          ∃ c ∈ questions, SameQuestion asked.call c := by
  have hclones : Session oneFile ((Resolvers.create {} 0).clone 0) [] :=
    (Session.start.create (by decide)).clone (by decide)
  have held : 0 ∈ ((Resolvers.create {} 0).clone 0).handles := List.mem_cons_self
  have hsession : Session oneFile oneFileRun.1 oneFileRun.2 :=
    ((hclones.ask held fileCall).ask held otherFileCall).ask held missingFileCall
  have hplain : ∀ asked ∈ oneFileRun.2, asked.call.isPlain = true := by decide +kernel
  obtain ⟨hanswers, -, hmemory⟩ := answers_of_session hsession hplain
  obtain ⟨questions, -, -, hall, hsize⟩ := hmemory 0 (by decide +kernel)
  have hone : (oneFileRun.1.memory 0).size = 1 := by decide +kernel
  exact ⟨hsession, hplain, hanswers, by decide +kernel, questions, hsize.symm.trans hone, hall⟩

end Resolvers

end ImportChain
