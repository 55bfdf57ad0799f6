/-
ImportChain.Files.Memo — answers that are remembered.

An answer is remembered by what decides it: the kind of thing, the
directory, the request and the options, where objects with the same fields
in another order are the same options. Who asks does not matter. Failures
are not remembered.
-/
import ImportChain.Files.Search

namespace ImportChain

/-- What decides an answer. -/
structure MemoKey where
  kind : ResolverKind
  context : String
  request : String
  /-- The canonical text of the options. -/
  options : String
  deriving Repr, DecidableEq, Inhabited

def Call.memoKey (call : Call) : MemoKey :=
  ⟨call.kind, call.context, call.request, call.options.canonical⟩

/-- The answers so far. -/
structure Memo where
  entries : List (MemoKey × Resolution) := []
  deriving DecidableEq, Inhabited

namespace Memo

def empty : Memo := {}

def get? (m : Memo) (key : MemoKey) : Option Resolution :=
  (m.entries.find? (·.1 = key)).map (·.2)

def size (m : Memo) : Nat := m.entries.length

/-- A question answered from memory, or else by a delegate, whose answer is
remembered if it is no failure. -/
def ask (m : Memo) (delegate : Delegate) (call : Call) :
    Except ResolutionError Resolution × Memo :=
  match m.get? call.memoKey with
  | some answer => (.ok answer, m)
  | none =>
    match delegate call with
    | .ok answer => (.ok answer, ⟨(call.memoKey, answer) :: m.entries⟩)
    | .error e => (.error e, m)

end Memo

end ImportChain
