/-
ImportChain.Proofs.Cache.Key — what the key of an instance tells apart.

A key is a type and after it nothing, a `|` with the identity of the
options, or a `#` with the digest of their canonical text. Where no type
has one of these characters in it, a key gives its type away, and with it
what the options go by (`instanceKey_eq_iff`). Where types have them, it
does not: `instanceKey_append_ident`.

Digests are the same text exactly if the hashes are the same; that no two
texts have one hash is left to assume.
-/
import ImportChain.Cache.Instance

namespace ImportChain

/-! ## Digests -/

namespace Digest

theorem hexDigit_inj : ∀ i j : Fin 16, Json.hexDigit i = Json.hexDigit j → i = j := by decide

theorem byteText_inj {b b' : UInt8} (h : byteText b = byteText b') : b = b' := by
  obtain ⟨hhigh, hlow⟩ := List.cons.inj h
  have hdiv := hexDigit_inj ⟨b.toNat / 16, by have := b.toNat_lt; omega⟩
    ⟨b'.toNat / 16, by have := b'.toNat_lt; omega⟩ hhigh
  have hmod := hexDigit_inj ⟨b.toNat % 16, by omega⟩ ⟨b'.toNat % 16, by omega⟩
    (List.singleton_inj.1 hlow)
  simp only [Fin.mk.injEq] at hdiv hmod
  exact UInt8.toNat_inj.1 (by omega)

theorem flatMap_byteText_inj : ∀ {bytes bytes' : List UInt8},
    bytes.flatMap byteText = bytes'.flatMap byteText → bytes = bytes'
  | [], [], _ => rfl
  | [], _ :: _, h => by cases h
  | _ :: _, [], h => by cases h
  | b :: bytes, b' :: bytes', h => by
      rw [List.flatMap_cons, List.flatMap_cons] at h
      obtain ⟨hfirst, hrest⟩ := List.append_inj h rfl
      rw [byteText_inj hfirst, flatMap_byteText_inj hrest]

/-- Only texts with one hash have one digest. -/
theorem hash_eq_of_ofText_eq {text text' : String} (h : ofText text = ofText text') :
    Blake3.hash text.toUTF8.toList = Blake3.hash text'.toUTF8.toList :=
  flatMap_byteText_inj (String.ofList_inj.1 h)

end Digest

/-! ## What options go by -/

/-- What counts about the options of an instance. -/
inductive OptionsLabel where
  /-- There are none. -/
  | absent
  /-- The name that they give themselves. -/
  | named (ident : String)
  /-- The canonical text of options without a name. -/
  | unnamed (text : String)
  deriving DecidableEq

namespace OptionsLabel

def ofOptions : Option Json → OptionsLabel
  | none => absent
  | some .null => absent
  | some options =>
    match (options.field? "ident").bind Json.str? with
    | some ident => named ident
    | none => unnamed options.canonical

theorem ofOptions_some {options : Json} (h : options ≠ .null) :
    ofOptions (some options)
      = match (options.field? "ident").bind Json.str? with
        | some ident => named ident
        | none => unnamed options.canonical := by
  cases options <;> first | rfl | exact absurd rfl h

/-- What a key has after the type. -/
def suffix : OptionsLabel → List Char
  | absent => []
  | named ident => '|' :: ident.toList
  | unnamed text => '#' :: (Digest.ofText text).toList

/-- Whether two labels are not told apart by the hash of a text only. -/
def Apart (label label' : OptionsLabel) : Prop :=
  ∀ text text', label = unnamed text → label' = unnamed text' →
    Digest.Blake3.hash text.toUTF8.toList = Digest.Blake3.hash text'.toUTF8.toList → text = text'

theorem suffix_inj {label label' : OptionsLabel} (h : label.Apart label')
    (he : label.suffix = label'.suffix) : label = label' := by
  cases label with
  | absent => cases label' <;> first | rfl | cases he
  | named ident =>
    cases label' with
    | named ident' =>
      rw [String.toList_inj.1 (List.cons.inj he).2]
    | absent => cases he
    | unnamed text' => exact absurd (List.cons.inj he).1 (by decide)
  | unnamed text =>
    cases label' with
    | unnamed text' =>
      have hdigest := String.toList_inj.1 (List.cons.inj he).2
      rw [h text text' rfl rfl (Digest.hash_eq_of_ofText_eq hdigest)]
    | absent => cases he
    | named ident' => exact absurd (List.cons.inj he).1 (by decide)

end OptionsLabel

/-! ## Keys -/

theorem instanceKey_some {options : Json} (h : options ≠ .null) (moduleType : String) :
    instanceKey moduleType (some options)
      = match (options.field? "ident").bind Json.str? with
        | some ident => moduleType ++ "|" ++ ident
        | none => moduleType ++ "#" ++ Digest.ofJson options := by
  cases options <;> first | rfl | exact absurd rfl h

theorem toList_instanceKey (moduleType : String) : ∀ options : Option Json,
    (instanceKey moduleType options).toList
      = moduleType.toList ++ (OptionsLabel.ofOptions options).suffix
  | none => (List.append_nil _).symm
  | some options => by
      by_cases h : options = .null
      · subst h
        exact (List.append_nil _).symm
      · rw [instanceKey_some h, OptionsLabel.ofOptions_some h]
        cases (options.field? "ident").bind Json.str? with
        | none => simp [OptionsLabel.suffix, String.toList_append, Digest.ofJson]
        | some ident => simp [OptionsLabel.suffix, String.toList_append]

/-- Whether a character ends the type in a key. -/
def endsType (c : Char) : Bool := c == '|' || c == '#'

/-- Whether a type can be read from the front of a key. -/
def PlainType (moduleType : String) : Prop := ∀ c ∈ moduleType.toList, endsType c = false

instance (moduleType : String) : Decidable (PlainType moduleType) :=
  decidable_of_iff (moduleType.toList.all fun c => !endsType c) (by simp [PlainType])

theorem takeWhile_instanceKey {moduleType : String} (h : PlainType moduleType)
    (options : Option Json) :
    (instanceKey moduleType options).toList.takeWhile (fun c => !endsType c)
      = moduleType.toList := by
  have hsuffix : (OptionsLabel.ofOptions options).suffix.takeWhile (fun c => !endsType c) = [] := by
    cases OptionsLabel.ofOptions options <;> rfl
  rw [toList_instanceKey, List.takeWhile_append_of_pos (fun c hc => by simp [h c hc]), hsuffix,
    List.append_nil]

/-- A key gives away its type and what the options go by. -/
theorem instanceKey_eq_iff {moduleType moduleType' : String} {options options' : Option Json}
    (h : PlainType moduleType) (h' : PlainType moduleType')
    (hapart : (OptionsLabel.ofOptions options).Apart (OptionsLabel.ofOptions options')) :
    instanceKey moduleType options = instanceKey moduleType' options'
      ↔ moduleType = moduleType'
        ∧ OptionsLabel.ofOptions options = OptionsLabel.ofOptions options' := by
  constructor
  · intro he
    have htype : moduleType.toList = moduleType'.toList := by
      rw [← takeWhile_instanceKey h options, he, takeWhile_instanceKey h']
    have hrest := congrArg String.toList he
    rw [toList_instanceKey, toList_instanceKey, htype] at hrest
    exact ⟨String.toList_inj.1 htype,
      OptionsLabel.suffix_inj hapart (List.append_cancel_left hrest)⟩
  · rintro ⟨rfl, hlabel⟩
    rw [← String.toList_inj, toList_instanceKey, toList_instanceKey, hlabel]

/-- Options with a name have the key of a longer type without options. -/
theorem instanceKey_append_ident (moduleType ident : String) (rest : List (String × Json)) :
    instanceKey (moduleType ++ "|" ++ ident) none
      = instanceKey moduleType (some (.obj (("ident", .str ident) :: rest))) := rfl

end ImportChain
