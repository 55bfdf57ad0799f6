/-
ImportChain.Json.Node — JSON text with its brackets matched.

A `Machine` takes one token after the other and keeps the containers that
are open, the innermost first. What comes out is a tree whose leaves may
stand for nothing, however deep: what such a text is worth is for its
reader to say.
-/
import ImportChain.Json.Token

namespace ImportChain.Json

/-- A text with its brackets matched; fields are as they were written,
repeated keys included. -/
inductive Node where
  /-- A string, a word or a numeral, if it stands for a value. -/
  | leaf (value : Option Json)
  | arr (items : List Node)
  /-- A key is missing where its string stands for no text. -/
  | obj (fields : List (Option String × Node))

/-- A container that is open: what it holds so far, the latest first, and for
an object the key whose value comes next. -/
inductive Frame where
  | arr (items : List Node)
  | obj (fields : List (Option String × Node)) (key : Option String)

/-- What may come next, inside the open containers. -/
inductive Machine where
  /-- A value. -/
  | value (context : List Frame)
  /-- The first item of an array, or its end. -/
  | firstItem (context : List Frame)
  /-- After an item: a comma or the end. -/
  | itemEnd (items : List Node) (context : List Frame)
  /-- The first key of an object, or its end. -/
  | firstKey (context : List Frame)
  /-- A further key. -/
  | nextKey (fields : List (Option String × Node)) (context : List Frame)
  /-- After a key: a colon. -/
  | colon (fields : List (Option String × Node)) (key : Option String) (context : List Frame)
  /-- After a field: a comma or the end. -/
  | fieldEnd (fields : List (Option String × Node)) (context : List Frame)
  /-- Nothing: the value is complete. -/
  | finished (value : Node)

namespace Machine

/-- After a complete value. -/
def supply (value : Node) : List Frame → Machine
  | [] => .finished value
  | .arr items :: context => .itemEnd (value :: items) context
  | .obj fields key :: context => .fieldEnd ((key, value) :: fields) context

/-- A token where a value may stand. -/
def begin? (context : List Frame) : Token → Option Machine
  | .str text => some (supply (.leaf (text.map .str)) context)
  | .atom v => some (supply (.leaf v) context)
  | .openArr => some (.firstItem context)
  | .openObj => some (.firstKey context)
  | _ => none

/-- The next token. -/
def step? : Machine → Token → Option Machine
  | .value context, token => begin? context token
  | .firstItem context, .closeArr => some (supply (.arr []) context)
  | .firstItem context, token => begin? (.arr [] :: context) token
  | .itemEnd items context, .comma => some (.value (.arr items :: context))
  | .itemEnd items context, .closeArr => some (supply (.arr items.reverse) context)
  | .firstKey context, .closeObj => some (supply (.obj []) context)
  | .firstKey context, .str key => some (.colon [] key context)
  | .nextKey fields context, .str key => some (.colon fields key context)
  | .colon fields key context, .colon => some (.value (.obj fields key :: context))
  | .fieldEnd fields context, .comma => some (.nextKey fields context)
  | .fieldEnd fields context, .closeObj => some (supply (.obj fields.reverse) context)
  | _, _ => none

/-- All tokens, one after the other. -/
def run? (m : Machine) (tokens : List Token) : Option Machine := tokens.foldlM step? m

def node? : Machine → Option Node
  | .finished node => some node
  | _ => none

end Machine

/-- The tree of a text. -/
def Node.ofText? (text : String) : Option Node := do
  let m ← (Machine.value []).run? (← tokens? text.toList)
  m.node?

end ImportChain.Json
