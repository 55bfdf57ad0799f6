/-
ImportChain.Proofs.Json.RoundTrip — canonical text read back.

The tokens of a value drive the machine of the reader from wherever a value
may stand to where that value is complete (`builds_tokens`), so that a
canonical text has the tree of the settled value, however deep it is. If it
is not too deep, the tree is worth that value: `ofText?_canonical`.

`canonical_eq_iff_reordered` is the main statement: a canonical text stands
for its value and for those that differ from it in the order of fields, and
for no others.
-/
import ImportChain.Json.Reader
import ImportChain.Proofs.Json.Cutting
import ImportChain.Proofs.Json.Order

namespace ImportChain.Json

/-! ## Trees of values -/

mutual

/-- The tree of a value. -/
def toNode : Json → Node
  | .arr items => .arr (nodesOfItems items)
  | .obj fields => .obj (nodesOfFields fields)
  | value => .leaf (some value)

def nodesOfItems : List Json → List Node
  | [] => []
  | item :: rest => toNode item :: nodesOfItems rest

def nodesOfFields : List (String × Json) → List (Option String × Node)
  | [] => []
  | (key, value) :: rest => (some key, toNode value) :: nodesOfFields rest

end

theorem toNode_arr (items : List Json) : (arr items).toNode = .arr (items.map toNode) := by
  have hitems : nodesOfItems items = items.map toNode := eq_map_of_cons rfl (fun _ _ => rfl) items
  rw [← hitems]
  rfl

theorem toNode_obj (fields : List (String × Json)) :
    (obj fields).toNode = .obj (fields.map fun field => (some field.1, field.2.toNode)) := by
  have hfields : nodesOfFields fields = fields.map fun field => (some field.1, field.2.toNode) :=
    eq_map_of_cons rfl (fun _ _ => rfl) fields
  rw [← hfields]
  rfl

section Values

variable {depth : Nat}

theorem items?_map_toNode {items : List Json} (n : Nat)
    (h : ∀ item ∈ items, item.toNode.value? .all depth () = some item) :
    Node.items? .all depth () n (items.map toNode) = some items := by
  induction items generalizing n with
  | nil => rfl
  | cons item rest ih =>
    obtain ⟨hfirst, hrest⟩ := List.forall_mem_cons.1 h
    have hitem : item.toNode.value? Selection.all depth (Selection.all.item () n) = some item :=
      hfirst
    rw [List.map_cons, Node.items?, hitem, ih (n + 1) hrest]
    rfl

theorem fields?_map_toNode {fields : List (String × Json)}
    (h : ∀ field ∈ fields, field.2.toNode.value? .all depth () = some field.2) :
    Node.fields? .all depth () (fields.map fun field => (some field.1, field.2.toNode))
      = some fields := by
  induction fields with
  | nil => rfl
  | cons field rest ih =>
    obtain ⟨hfirst, hrest⟩ := List.forall_mem_cons.1 h
    have hfield : Selection.all.field? () field.1 = some () := rfl
    rw [List.map_cons, Node.fields?, hfield]
    simp only [hfirst, ih hrest]
    rfl

/-- The tree of a value that is not too deep is worth that value. -/
theorem value?_toNode {value : Json} (h : value.depth ≤ depth) :
    value.toNode.value? .all depth () = some value := by
  induction value using Json.induction generalizing depth with
  | null | bool | int | float | str => rfl
  | arr items ih =>
    obtain ⟨hpos, hitems⟩ := depth_arr_le_iff.1 h
    rw [toNode_arr, Node.value?, if_pos hpos,
      items?_map_toNode 0 fun item hitem => ih item hitem (hitems item hitem)]
    rfl
  | obj fields ih =>
    obtain ⟨hpos, hfields⟩ := depth_obj_le_iff.1 h
    rw [toNode_obj, Node.value?, if_pos hpos,
      fields?_map_toNode fun field hfield => ih field hfield (hfields field hfield)]
    rfl

/-- A tree is that of one value only. -/
theorem toNode_inj {a b : Json} (h : a.toNode = b.toNode) : a = b := by
  have ha := value?_toNode (Nat.le_max_left a.depth b.depth)
  have hb := value?_toNode (Nat.le_max_right a.depth b.depth)
  rw [h, hb] at ha
  exact (Option.some.inj ha).symm

end Values

/-! ## The machine on the tokens of a value -/

namespace Machine

/-- Whether a value may come next that goes into the open containers. -/
def Expects (m : Machine) (context : List Frame) : Prop :=
  ∀ token, token ≠ .closeArr → m.step? token = begin? context token

theorem expects_value (context : List Frame) : (value context).Expects context := fun _ _ => rfl

theorem expects_firstItem (context : List Frame) :
    (firstItem context).Expects (.arr [] :: context) := by
  intro token htoken
  cases token <;> first | rfl | exact absurd rfl htoken

theorem run?_cons (m : Machine) (token : Token) (rest : List Token) :
    m.run? (token :: rest) = (m.step? token).bind (·.run? rest) := rfl

end Machine

/-- Tokens that make a node wherever a value may come. -/
def Builds (tokens : List Token) (node : Node) : Prop :=
  ∀ (m : Machine) (context : List Frame) (rest : List Token), m.Expects context →
    m.run? (tokens ++ rest) = (Machine.supply node context).run? rest

section Builds

variable {context : List Frame}

theorem builds_singleton {token : Token} {node : Node} (hclose : token ≠ .closeArr)
    (h : ∀ context, Machine.begin? context token = some (Machine.supply node context)) :
    Builds [token] node := by
  intro m context rest hm
  rw [List.singleton_append, Machine.run?_cons, hm token hclose, h, Option.bind_some]

/-- The items after the first one, and the end of the array. -/
theorem run?_itemEnd {lists : List (List Token)} {nodes : List Node}
    (h : List.Forall₂ Builds lists nodes) (done : List Node) (rest : List Token) :
    (Machine.itemEnd done context).run? (lists.flatMap ([.comma] ++ ·) ++ .closeArr :: rest)
      = (Machine.supply (.arr (done.reverse ++ nodes)) context).run? rest := by
  induction h generalizing done with
  | nil => rw [List.append_nil]; rfl
  | @cons list node lists nodes hlist _ ih =>
    have hcomma : (Machine.itemEnd done context).step? .comma
        = some (.value (.arr done :: context)) := rfl
    have hsupply : Machine.supply node (.arr done :: context)
        = .itemEnd (node :: done) context := rfl
    rw [List.flatMap_cons, List.singleton_append, List.cons_append, List.cons_append,
      Machine.run?_cons, hcomma, Option.bind_some, List.append_assoc,
      hlist _ _ _ (Machine.expects_value _), hsupply, ih (node :: done), List.reverse_cons,
      List.append_assoc, List.singleton_append]

theorem builds_arr {lists : List (List Token)} {nodes : List Node}
    (h : List.Forall₂ Builds lists nodes) :
    Builds (.openArr :: [Token.comma].intercalate lists ++ [.closeArr]) (.arr nodes) := by
  intro m context rest hm
  rw [List.cons_append, List.cons_append, List.append_assoc, Machine.run?_cons,
    hm _ (by decide), Machine.begin?, Option.bind_some, List.singleton_append]
  cases h with
  | nil => rfl
  | @cons list node lists nodes hlist hlists =>
    rw [intercalate_cons, List.append_assoc, hlist _ _ _ (Machine.expects_firstItem context)]
    exact run?_itemEnd hlists [node] rest

/-- A key, a colon and a value. -/
theorem run?_field {list : List Token} {node : Node} (h : Builds list node) {m : Machine}
    {fields : List (Option String × Node)} {key : String} (rest : List Token)
    (hm : m.step? (.str (some key)) = some (.colon fields (some key) context)) :
    m.run? (.str (some key) :: .colon :: list ++ rest)
      = (Machine.fieldEnd ((some key, node) :: fields) context).run? rest := by
  have hcolon : (Machine.colon fields (some key) context).step? .colon
      = some (.value (.obj fields (some key) :: context)) := rfl
  rw [List.cons_append, List.cons_append, Machine.run?_cons, hm, Option.bind_some,
    Machine.run?_cons, hcolon, Option.bind_some, h _ _ _ (Machine.expects_value _)]
  rfl

/-- The tokens of a field make a key with a node. -/
def BuildsField (tokens : List Token) (field : Option String × Node) : Prop :=
  ∃ key list, tokens = .str (some key) :: .colon :: list ∧ field.1 = some key
    ∧ Builds list field.2

/-- The fields after the first one, and the end of the object. -/
theorem run?_fieldEnd {lists : List (List Token)} {fields : List (Option String × Node)}
    (h : List.Forall₂ BuildsField lists fields) (done : List (Option String × Node))
    (rest : List Token) :
    (Machine.fieldEnd done context).run? (lists.flatMap ([.comma] ++ ·) ++ .closeObj :: rest)
      = (Machine.supply (.obj (done.reverse ++ fields)) context).run? rest := by
  induction h generalizing done with
  | nil => rw [List.append_nil]; rfl
  | @cons list field lists fields hlist _ ih =>
    obtain ⟨name, node⟩ := field
    obtain ⟨key, list, rfl, rfl, hbuilds⟩ := hlist
    have hcomma : (Machine.fieldEnd done context).step? .comma
        = some (.nextKey done context) := rfl
    rw [List.flatMap_cons, List.singleton_append, List.append_assoc, List.cons_append,
      Machine.run?_cons, hcomma, Option.bind_some, run?_field hbuilds _ rfl,
      ih ((some key, node) :: done), List.reverse_cons, List.append_assoc, List.singleton_append]

theorem builds_obj {lists : List (List Token)} {fields : List (Option String × Node)}
    (h : List.Forall₂ BuildsField lists fields) :
    Builds (.openObj :: [Token.comma].intercalate lists ++ [.closeObj]) (.obj fields) := by
  intro m context rest hm
  rw [List.cons_append, List.cons_append, List.append_assoc, Machine.run?_cons,
    hm _ (by decide), Machine.begin?, Option.bind_some, List.singleton_append]
  cases h with
  | nil => rfl
  | @cons list field lists fields hlist hlists =>
    obtain ⟨name, node⟩ := field
    obtain ⟨key, list, rfl, rfl, hbuilds⟩ := hlist
    rw [intercalate_cons, List.append_assoc, run?_field hbuilds _ rfl]
    exact run?_fieldEnd hlists [(some key, node)] rest

/-- The tokens of a value make its tree. -/
theorem builds_tokens (value : Json) : Builds value.tokens value.toNode := by
  -- The depth of a value does not count here: the machine keeps its own stack.
  induction value using Json.induction with
  | null | bool | int | float | str => exact builds_singleton (by simp) fun _ => rfl
  | arr items ih =>
    rw [tokens_arr, toNode_arr]
    refine builds_arr ?_
    rw [List.forall₂_map_left_iff, List.forall₂_map_right_iff, List.forall₂_same]
    exact ih
  | obj fields ih =>
    rw [tokens_obj, toNode_obj]
    refine builds_obj ?_
    rw [List.forall₂_map_left_iff, List.forall₂_map_right_iff, List.forall₂_same]
    exact fun field hfield => ⟨field.1, field.2.tokens, rfl, rfl, ih field hfield⟩

end Builds

/-! ## Canonical text -/

variable {a b : Json}

/-- A canonical text has the tree of the settled value. -/
theorem nodeOfText?_canonical (h : a.wholeNumbers = true) :
    Node.ofText? a.canonical = some a.settled.toNode := by
  have htokens := cuts_canonicalChars h [] (fun _ hc => nomatch hc)
  have hrun := builds_tokens a.settled (.value []) [] [] (Machine.expects_value [])
  rw [List.append_nil] at htokens hrun
  rw [Node.ofText?, canonical, String.toList_ofList, htokens]
  simp only [tokens?, Option.map_some, List.append_nil, Option.bind_eq_bind, Option.bind_some, hrun]
  rfl

/-- A canonical text that is not too deep is read as the settled value. -/
theorem ofText?_canonical (h : a.wholeNumbers = true) (hdepth : a.depth ≤ Node.depthLimit) :
    ofText? a.canonical = some a.settled := by
  have hvalue := value?_toNode (Nat.le_trans (depth_settled_le a) hdepth)
  rw [ofText?, asWritten?, nodeOfText?_canonical h, Option.bind_eq_bind, Option.bind_some, hvalue,
    Option.map_some, settled_settled]

/-- A value and the settled one have one canonical text. -/
theorem canonicalChars_settled (value : Json) :
    value.settled.canonicalChars = value.canonicalChars := by
  induction value using Json.induction with
  | null | bool | int | float | str => rfl
  | arr items ih =>
    have hitems : (items.map settled).map canonicalChars = items.map canonicalChars := by
      rw [List.map_map]
      exact List.map_congr_left ih
    rw [settled_arr, canonicalChars_arr, canonicalChars_arr, hitems]
  | obj fields ih =>
    have hfields : ((KeyMap.ofList fields).map fun field => (field.1, field.2.settled)).map
          (fun field => fieldText field.1 field.2.canonicalChars)
        = (KeyMap.ofList fields).map fun field => fieldText field.1 field.2.canonicalChars := by
      rw [List.map_map]
      refine List.map_congr_left fun field hfield => ?_
      rw [Function.comp, ih field (KeyMap.mem_of_mem_ofList hfield)]
    have hsorted := KeyMap.sorted_ofList fields
    rw [settled_obj, canonicalChars_obj, canonicalChars_obj, KeyMap.ofList_map,
      KeyMap.ofList_of_sorted hsorted, hfields]

/-- Values have one canonical text exactly if they settle to one value. -/
theorem canonical_eq_iff_settled_eq (ha : a.wholeNumbers = true) (hb : b.wholeNumbers = true) :
    a.canonical = b.canonical ↔ a.settled = b.settled := by
  constructor
  · intro h
    have hnode := nodeOfText?_canonical ha
    rw [h, nodeOfText?_canonical hb] at hnode
    exact toNode_inj (Option.some.inj hnode).symm
  · intro h
    rw [canonical, canonical, ← canonicalChars_settled a, h, canonicalChars_settled]

/-- A canonical text stands for the content of a value: two values with
distinct keys and whole numbers have one exactly if they are the same up to
the order of fields, and a value with fewer than 128 containers inside each
other is read back from it up to that order. -/
theorem canonical_eq_iff_reordered (ha : a.distinctKeys = true) (hb : b.distinctKeys = true)
    (hwholeA : a.wholeNumbers = true) (hwholeB : b.wholeNumbers = true) :
    (a.canonical = b.canonical ↔ Reordered a b)
      ∧ (a.depth < 128 → ∃ c, ofText? a.canonical = some c ∧ Reordered a c) := by
  refine ⟨?_, fun hdepth => ⟨a.settled, ofText?_canonical hwholeA (Nat.le_of_lt_succ hdepth), ?_⟩⟩
  · rw [canonical_eq_iff_settled_eq hwholeA hwholeB, reordered_iff_settled_eq ha hb]
  · exact reordered_of_settled_eq ha (distinctKeys_settled a) (settled_settled a).symm

/-- Options with a quote and a control character in a text, and the same in
another order. -/
def quotedOptions : Json × Json :=
  (.obj [("b", .arr [.int (-1), .obj [("y", .str "a\"\x01"), ("x", .null)]]), ("a", .bool true)],
    .obj [("a", .bool true), ("b", .arr [.int (-1), .obj [("x", .null), ("y", .str "a\"\x01")]])])

theorem canonical_eq_of_quotedOptions :
    quotedOptions.1.canonical = quotedOptions.2.canonical
      ∧ ∃ c, ofText? quotedOptions.1.canonical = some c ∧ Reordered quotedOptions.1 c := by
  have hcontent := canonical_eq_iff_reordered (a := quotedOptions.1) (b := quotedOptions.2)
    (by decide) (by decide) (by decide) (by decide)
  have horder : Reordered quotedOptions.1 quotedOptions.2 :=
    (reordered_iff_settled_eq (by decide) (by decide)).2 (by decide)
  exact ⟨hcontent.1.2 horder, hcontent.2 (by decide)⟩

end ImportChain.Json
