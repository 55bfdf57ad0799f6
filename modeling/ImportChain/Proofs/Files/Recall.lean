/-
ImportChain.Proofs.Files.Recall — memories answer as the disk does, for
options of any kind.

An answer is remembered under the canonical text of its options. What a
lookup takes from options are texts, arrays, objects and `false`, never a
number, so that the outline which that text tells is enough
(`answer_eq_of_memoKey_eq`): options that could be mistaken for each other
are answered alike.

A memory that holds nothing but answers of the disk (`Memo.Faithful`) gives
only these, and stays so. `Resolvers.Session.answers` is the main statement.
-/
import ImportChain.Proofs.Files.Aliases
import ImportChain.Proofs.Files.Memo
import ImportChain.Proofs.Json.Outline

namespace ImportChain

/-! ## Settings from outlines -/

namespace Json

theorem field?_outline (value : Json) (key : String) :
    value.outline.field? key = (value.field? key).map outline := by
  cases value with
  | obj fields => simp only [outline_obj, field?, KeyMap.get?_map]
  | arr items => rw [outline_arr]; rfl
  | null | bool | int | float | str => rfl

theorem arr?_outline (value : Json) : value.outline.arr? = value.arr?.map (·.map outline) := by
  cases value with
  | obj fields => rw [outline_obj]; rfl
  | arr items => rw [outline_arr]; rfl
  | null | bool | int | float | str => rfl

theorem obj?_outline (value : Json) :
    value.outline.obj? = value.obj?.map (·.map fun field => (field.1, field.2.outline)) := by
  cases value with
  | obj fields => rw [outline_obj]; rfl
  | arr items => rw [outline_arr]; rfl
  | null | bool | int | float | str => rfl

theorem str?_outline (value : Json) : value.outline.str? = value.str? := by
  cases value with
  | obj fields => rw [outline_obj]; rfl
  | arr items => rw [outline_arr]; rfl
  | null | bool | int | float | str => rfl

end Json

namespace Lookup

theorem texts_outline (options : Json) (key : String) (default : List String) :
    texts options.outline key default = texts options key default := by
  have hitems : (options.outline.field? key).bind Json.arr?
      = ((options.field? key).bind Json.arr?).map (·.map Json.outline) := by
    rw [Json.field?_outline]
    cases options.field? key with
    | none => rfl
    | some value => exact Json.arr?_outline value
  rw [texts, texts, hitems]
  cases (options.field? key).bind Json.arr? with
  | none => rfl
  | some items =>
    simp only [Option.map_some, List.filterMap_map]
    exact List.filterMap_congr fun item _ => Json.str?_outline item

/-- Settings from an outline differ in the targets of aliases, and there in
numbers alone. -/
theorem ofOptions_outline (kind : ResolverKind) (options : Json) :
    ofOptions kind options.outline
      = { ofOptions kind options with
          aliases := (ofOptions kind options).aliases.map fun entry =>
            (entry.1, entry.2.outline) } := by
  have haliases : ((options.outline.field? "alias").map Json.settled).bind Json.obj?
      = (((options.field? "alias").map Json.settled).bind Json.obj?).map
          (·.map fun entry => (entry.1, entry.2.outline)) := by
    rw [Json.field?_outline]
    cases options.field? "alias" with
    | none => rfl
    | some value =>
      simp only [Option.map_some, Option.bind_some, Json.settled_outline, Json.obj?_outline]
  simp only [ofOptions, texts_outline, haliases]
  cases ((options.field? "alias").map Json.settled).bind Json.obj? <;> rfl

end Lookup

theorem Aliased.ofTarget_outline (target : Json) (rest : String) :
    ofTarget target.outline rest = ofTarget target rest := by
  cases target with
  | obj fields => rw [Json.outline_obj]; rfl
  | arr items => rw [Json.outline_arr]; rfl
  | null | bool | int | float | str => rfl

theorem Aliased.ofRequest_outline (request : String) (entries : List (String × Json)) :
    ofRequest request (entries.map fun entry => (entry.1, entry.2.outline))
      = ofRequest request entries := by
  induction entries with
  | nil => rfl
  | cons entry others ih =>
    obtain ⟨name, target⟩ := entry
    simp only [List.map_cons, ofRequest, ofTarget_outline, ih]

theorem Search.search_outline (v : View) (kind : ResolverKind) (options : Json)
    (context request : String) :
    search v (.ofOptions kind options.outline) context request
      = search v (.ofOptions kind options) context request := by
  rw [Lookup.ofOptions_outline]
  simp only [search, Aliased.ofRequest_outline, direct_withAliases]
  rfl

/-- Questions with one key have one answer. -/
theorem answer_eq_of_memoKey_eq (v : View) {c d : Call} (hc : c.options.distinctKeys = true)
    (hd : d.options.distinctKeys = true) (h : c.memoKey = d.memoKey) :
    v.answer c = v.answer d := by
  obtain ⟨hkind, hcontext, hrequest, hoptions⟩ := MemoKey.mk.inj h
  have hsearch (context request : String) :
      Search.search v (.ofOptions c.kind c.options) context request
        = Search.search v (.ofOptions d.kind d.options) context request := by
    -- The key tells the outline of the settled options, and settings need no more.
    rw [← Lookup.ofOptions_settled hc, ← Lookup.ofOptions_settled hd,
      ← Search.search_outline v c.kind, ← Search.search_outline v d.kind,
      Json.outline_eq_of_canonical_eq hoptions, hkind]
  simp only [View.answer, hsearch, hrequest, hcontext]

/-! ## Memories -/

/-- A memory that holds nothing but answers of the disk. -/
def Memo.Faithful (v : View) (m : Memo) : Prop :=
  ∀ call : Call, call.options.distinctKeys = true → ∀ answer,
    m.get? call.memoKey = some answer → v.answer call = .ok answer

namespace Memo

variable {v : View} {m : Memo} {call : Call}

theorem faithful_empty (v : View) : Faithful v empty := fun _ _ _ h => nomatch h

theorem get?_cons (key other : MemoKey) (answer : Resolution) :
    get? ⟨(key, answer) :: m.entries⟩ other
      = if key = other then some answer else m.get? other := by
  by_cases hkey : key = other <;> simp [get?, hkey]

/-- A faithful memory answers as the disk does and stays faithful. -/
theorem Faithful.ask (h : m.Faithful v) (hkeys : call.options.distinctKeys = true) :
    (m.ask v.answer call).1 = v.answer call ∧ (m.ask v.answer call).2.Faithful v := by
  unfold Memo.ask
  cases hget : m.get? call.memoKey with
  | some answer => exact ⟨(h call hkeys answer hget).symm, h⟩
  | none =>
    cases hanswer : v.answer call with
    | error e => exact ⟨rfl, h⟩
    | ok answer =>
      refine ⟨rfl, fun other hother found hfound => ?_⟩
      rw [get?_cons] at hfound
      split at hfound
      · next hkey =>
        cases hfound
        exact (answer_eq_of_memoKey_eq v hother hkeys hkey.symm).trans hanswer
      · exact h other hother found hfound

end Memo

/-! ## Resolvers -/

namespace Resolvers

variable {v : View} {r : Resolvers} {log : List Asked}

/-- Whatever was asked before, of a resolver or of its clones, a question gets
the answer that the disk has for it. -/
theorem Session.answers (h : Session v r log)
    (hkeys : ∀ asked ∈ log, asked.call.options.distinctKeys = true) :
    (∀ handle, (r.memory handle).Faithful v)
      ∧ ∀ asked ∈ log, asked.answer = v.answer asked.call := by
  induction h with
  | start => exact ⟨fun _ => Memo.faithful_empty v, fun _ h => nomatch h⟩
  | @create r log address _ _ ih =>
    refine ⟨fun handle => ?_, (ih hkeys).2⟩
    by_cases he : handle = address
    · have hempty : (r.create address).memory handle = .empty := he ▸ Function.update_self ..
      rw [hempty]
      exact Memo.faithful_empty v
    · have hkept : (r.create address).memory handle = r.memory handle := Function.update_of_ne he ..
      rw [hkept]
      exact (ih hkeys).1 handle
  | clone _ _ ih => exact ih hkeys
  | @ask r log handle _ _ call ih =>
    obtain ⟨hcall, hlog⟩ := List.forall_mem_cons.1 hkeys
    obtain ⟨hmemories, hanswers⟩ := ih hlog
    obtain ⟨hanswer, hmemory⟩ := (hmemories handle).ask hcall
    refine ⟨fun other => ?_, List.forall_mem_cons.2 ⟨hanswer, hanswers⟩⟩
    by_cases he : other = handle
    · subst he
      simpa [Resolvers.ask] using hmemory
    · have hkept : (r.ask v handle call).2.memory other = r.memory other :=
        Function.update_of_ne he ..
      rw [hkept]
      exact hmemories other

end Resolvers

end ImportChain
