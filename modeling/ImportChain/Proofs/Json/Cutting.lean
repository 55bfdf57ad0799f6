/-
ImportChain.Proofs.Json.Cutting — printed text cut into tokens again.

`Cuts` says that a text is cut into certain tokens whatever follows, unless
what follows could belong to its last token. Punctuation goes before a text
that is cut (`Cuts.punctuation`), and two texts are cut side by side where
the second does not go on with a word (`Cuts.append`). With these, strings
(`cuts_quoted`) and numerals (`cuts_intText`) make up every printed value:
`cuts_canonicalChars`.
-/
import ImportChain.Json.Printer
import ImportChain.Json.Token
import ImportChain.Proofs.Json.Shape
import Mathlib.Data.List.TakeWhile

namespace ImportChain.Json

/-! ## Between the items of a list -/

theorem intercalate_cons {α : Type} (sep first : List α) : ∀ rest : List (List α),
    sep.intercalate (first :: rest) = first ++ rest.flatMap (sep ++ ·)
  | [] => by simp
  | second :: rest => by
      rw [List.intercalate_cons_cons, intercalate_cons sep second rest, List.flatMap_cons]
      simp

/-! ## The inside of a string -/

/-- How a character may stand in a printed string. -/
inductive EscapedAs (c : Char) : List Char → Prop where
  | letter {l : Char} (h : unescapeLetter? l = some c) : EscapedAs c ['\\', l]
  | digits (h : c.toNat < 32) :
    EscapedAs c ['\\', 'u', '0', '0', hexDigit (c.toNat / 16), hexDigit (c.toNat % 16)]
  | itself (hquote : c ≠ '"') (hbackslash : c ≠ '\\') (h : 32 ≤ c.toNat) : EscapedAs c [c]

theorem escapedAs_escaped (c : Char) : EscapedAs c (escaped c) := by
  unfold escaped
  split
  · next h => exact .letter (by rw [h]; rfl)
  split
  · next h => exact .letter (by rw [h]; rfl)
  split
  · next h => exact .letter (by rw [h]; rfl)
  split
  · next h => exact .letter (by rw [h]; rfl)
  split
  · next h => exact .letter (by rw [h]; rfl)
  split
  · next h => exact .letter (by rw [h]; rfl)
  split
  · next h => exact .letter (by rw [h]; rfl)
  split
  · next h => exact .digits h
  · next hquote hbackslash _ _ _ _ _ h => exact .itself hquote hbackslash (Nat.not_lt.1 h)

theorem hexDigit_ne : ∀ n : Fin 16, hexDigit n ≠ '"' ∧ hexDigit n ≠ '\\' := by decide

theorem unit?_hexDigits : ∀ n : Fin 32,
    unit? '0' '0' (hexDigit (n / 16)) (hexDigit (n % 16)) = some n.val := by decide

theorem spanString_cons {c : Char} (hquote : c ≠ '"') (hbackslash : c ≠ '\\') (s : List Char) :
    spanString (c :: s) = (spanString s).map fun (inside, rest) => (c :: inside, rest) := by
  rw [spanString]
  · exact hquote
  · intro d s' hc _
    exact hbackslash hc

/-- A printed string goes as far as its closing quote. -/
theorem spanString_escaped (s rest : List Char) :
    spanString (s.flatMap escaped ++ '"' :: rest) = some (s.flatMap escaped, rest) := by
  induction s with
  | nil => rw [List.flatMap_nil, List.nil_append, spanString]
  | cons c s ih =>
    rw [List.flatMap_cons, List.append_assoc]
    -- What is written for `c` matters only by its shape, so that there are three
    -- cases and not one for each character with an escape of its own.
    have hc := escapedAs_escaped c
    generalize escaped c = written at hc
    cases hc with
    | letter h => simp [spanString, ih]
    | digits h =>
      have hhigh := hexDigit_ne ⟨c.toNat / 16, by omega⟩
      have hlow := hexDigit_ne ⟨c.toNat % 16, by omega⟩
      simp [spanString, spanString_cons hhigh.1 hhigh.2, spanString_cons hlow.1 hlow.2, ih]
    | itself hquote hbackslash _ => simp [spanString_cons hquote hbackslash, ih]

theorem codes?_letter {l c : Char} (h : unescapeLetter? l = some c) (s : List Char) :
    codes? ('\\' :: l :: s) = (codes? s).map (c.toNat :: ·) := by
  have hu : l ≠ 'u' := by
    rintro rfl
    rw [show unescapeLetter? 'u' = none by decide] at h
    cases h
  rw [codes?]
  · rw [h]
    cases codes? s <;> rfl
  · intro _ _ _ _ _ he _
    exact hu he

theorem codes?_cons {c : Char} (hbackslash : c ≠ '\\') (h : 32 ≤ c.toNat) (s : List Char) :
    codes? (c :: s) = (codes? s).map (c.toNat :: ·) := by
  rw [codes?]
  · rw [if_neg (not_or.2 ⟨hbackslash, Nat.not_lt.2 h⟩)]
  · intro _ _ _ _ _ he _
    exact hbackslash he
  · intro _ _ he _
    exact hbackslash he

theorem codes?_escaped (s : List Char) : codes? (s.flatMap escaped) = some (s.map Char.toNat) := by
  induction s with
  | nil => rfl
  | cons c s ih =>
    rw [List.flatMap_cons]
    have hc := escapedAs_escaped c
    generalize escaped c = written at hc
    cases hc with
    | letter h =>
      rw [List.cons_append, List.cons_append, List.nil_append, codes?_letter h, ih]
      rfl
    | digits h =>
      have hunit := unit?_hexDigits ⟨c.toNat, h⟩
      simp only [List.cons_append, List.nil_append, codes?, hunit, ih]
      rfl
    | itself _ hbackslash h =>
      rw [List.cons_append, List.nil_append, codes?_cons hbackslash h, ih]
      rfl

/-- A character is no surrogate. -/
theorem not_surrogate (c : Char) :
    isHighSurrogate c.toNat = false ∧ isLowSurrogate c.toNat = false := by
  have hvalid : c.toNat < 0xd800 ∨ 0xdfff < c.toNat ∧ c.toNat < 0x110000 := c.valid
  simp only [isHighSurrogate, isLowSurrogate, Bool.and_eq_false_iff, decide_eq_false_iff_not]
  omega

theorem charsOfCodes?_map (s : List Char) : charsOfCodes? (s.map Char.toNat) = some s := by
  induction s with
  | nil => rfl
  | cons c s ih =>
    obtain ⟨hhigh, hlow⟩ := not_surrogate c
    cases s with
    | nil => simp [charsOfCodes?, hhigh, hlow]
    | cons d s =>
      rw [List.map_cons] at ih
      simp [charsOfCodes?, hhigh, hlow, ih]

theorem string?_escaped (s : List Char) :
    string? (s.flatMap escaped) = some (.str (some (String.ofList s))) := by
  rw [string?, codes?_escaped, Option.map_some, charsOfCodes?_map, Option.map_some]

/-! ## Numerals -/

theorem digitsValue_eq (digits : List Char) :
    digitsValue digits = Nat.ofDigitChars 10 digits 0 := by
  -- The fold has to start at any number for the induction.
  have hgeneral : ∀ (digits : List Char) (n : Nat),
      digits.foldl (fun n c => n * 10 + digitValue c) n = Nat.ofDigitChars 10 digits n := by
    intro digits
    induction digits with
    | nil => intro n; rfl
    | cons c digits ih =>
      intro n
      rw [List.foldl_cons, ih, Nat.ofDigitChars, Nat.ofDigitChars, List.foldl_cons, Nat.mul_comm n]
      rfl
  exact hgeneral digits 0

theorem digitsValue_natText (n : Nat) : digitsValue (natText n) = n := by
  rw [digitsValue_eq]
  exact Nat.ofDigitChars_toDigits (by decide) (by decide)

theorem isDigit_of_mem_natText {n : Nat} {c : Char} (h : c ∈ natText n) : c.isDigit = true :=
  Nat.isDigit_of_mem_toDigits (by decide) (by decide) h

theorem head?_natText_ne_zero (n : Nat) (h : 0 < n) : (natText n).head? ≠ some '0' := by
  induction n using Nat.strongRecOn with
  | _ n ih =>
    by_cases hn : n < 10
    · have hdigit : ∀ d : Fin 10, 0 < d.val → d.val.digitChar ≠ '0' := by decide
      rw [natText, Nat.toDigits_of_lt_base hn]
      exact fun he => hdigit ⟨n, hn⟩ h (Option.some.inj he)
    · have hsplit : natText n = natText (n / 10) ++ [(n % 10).digitChar] :=
        Nat.toDigits_of_base_le (by decide) (Nat.not_lt.1 hn)
      have hne : natText (n / 10) ≠ [] := Nat.toDigits_ne_nil
      rw [hsplit, List.head?_append_of_ne_nil _ hne]
      exact ih (n / 10) (Nat.div_lt_self h (by decide)) (by omega)

/-- A printed number has no zero before its other digits. -/
theorem natText_no_leading_zero (n : Nat) :
    ¬ ((natText n).head? = some '0' ∧ 1 < (natText n).length) := by
  rintro ⟨hhead, hlength⟩
  rcases Nat.eq_zero_or_pos n with rfl | hpos
  · exact absurd hlength (by decide)
  · exact head?_natText_ne_zero n hpos hhead

theorem spanDigits_natText (n : Nat) : spanDigits (natText n) = (natText n, []) := by
  have hall : ∀ c ∈ natText n, c.isDigit = true := fun c hc => isDigit_of_mem_natText hc
  rw [spanDigits, List.takeWhile_eq_self_iff.2 hall, List.dropWhile_eq_nil_iff.2 hall]

theorem ofText?_intText (n : Int) :
    Numeral.ofText? (intText n) = some ⟨n < 0, natText n.natAbs, none, none⟩ := by
  have hne : natText n.natAbs ≠ [] := Nat.toDigits_ne_nil
  have hwhole : ¬ (natText n.natAbs = []
      ∨ (natText n.natAbs).head? = some '0' ∧ 1 < (natText n.natAbs).length) :=
    not_or.2 ⟨hne, natText_no_leading_zero _⟩
  have hspan := spanDigits_natText n.natAbs
  by_cases h : n < 0
  · rw [intText, if_pos h]
    simp [Numeral.ofText?, hspan, hwhole, h]
  · rw [intText, if_neg h]
    cases hdigits : natText n.natAbs with
    | nil => exact absurd hdigits hne
    | cons c digits =>
      have hminus : c ≠ '-' := by
        rintro rfl
        exact absurd (isDigit_of_mem_natText (hdigits ▸ List.mem_cons_self)) (by decide)
      rw [hdigits] at hspan hwhole
      simpa [Numeral.ofText?, hspan, h, hminus] using hwhole

theorem value?_intText {n : Int} (h : (int n).wholeNumbers = true) :
    (Numeral.mk (n < 0) (natText n.natAbs) none none).value? = some (.int n) := by
  obtain ⟨hlow, hhigh⟩ := wholeNumbers_int_iff.1 h
  simp only [Numeral.value?, digitsValue_natText, Option.isSome_none, Bool.false_eq_true, or_self,
    if_false]
  by_cases hn : n < 0
  · have hrange : 0 < n.natAbs ∧ n.natAbs ≤ Nat.pow 2 63 := by omega
    simp only [hn, decide_true, if_true, hrange, and_self]
    congr 2
    omega
  · have hrange : n.natAbs < Nat.pow 2 64 := by omega
    simp only [hn, decide_false, Bool.false_eq_true, if_false, hrange, if_true]
    congr 2
    omega

theorem mem_intText {n : Int} {c : Char} (h : c ∈ intText n) : c = '-' ∨ c.isDigit = true := by
  unfold intText at h
  split at h
  · exact (List.mem_cons.1 h).imp_right isDigit_of_mem_natText
  · exact Or.inr (isDigit_of_mem_natText h)

theorem atom?_intText {n : Int} (h : (int n).wholeNumbers = true) :
    atom? (intText n) = some (.atom (some (.int n))) := by
  have hword : ∀ first rest, first ≠ '-' → first.isDigit = false → intText n ≠ first :: rest := by
    intro first rest hminus hdigit he
    rcases mem_intText (he ▸ List.mem_cons_self) with hc | hc
    · exact hminus hc
    · rw [hdigit] at hc
      cases hc
  rw [atom?, if_neg (hword _ _ (by decide) (by decide)), if_neg (hword _ _ (by decide) (by decide)),
    if_neg (hword _ _ (by decide) (by decide)), ofText?_intText, Option.map_some,
    value?_intText h]

/-! ## Texts that are cut -/

/-- A text that cannot go on with the last token of what stands before it. -/
def Apart (rest : List Char) : Prop := ∀ c ∈ rest.head?, isAtomChar c = false

/-- A text is cut into tokens, whatever comes after it. -/
def Cuts (text : List Char) (tokens : List Token) : Prop :=
  ∀ rest, Apart rest → tokens? (text ++ rest) = (tokens? rest).map (tokens ++ ·)

section Cuts

variable {c : Char} {text text' : List Char} {tokens tokens' : List Token} {token : Token}

theorem mem_of_punctuation? (h : punctuation? c = some token) :
    c ∈ ['[', ']', '{', '}', ',', ':'] := by
  unfold punctuation? at h
  split_ifs at h <;> simp_all

theorem punctuation_apart (h : punctuation? c = some token) :
    isAtomChar c = false ∧ isBlank c = false := by
  have hmem := mem_of_punctuation? h
  simp only [List.mem_cons, List.not_mem_nil, or_false] at hmem
  rcases hmem with rfl | rfl | rfl | rfl | rfl | rfl <;> decide

/-- No token goes on with punctuation. -/
theorem apart_punctuation (h : punctuation? c = some token) (rest : List Char) :
    Apart (c :: rest) := by
  rintro _ ⟨⟩
  exact (punctuation_apart h).1

theorem tokens?_punctuation (h : punctuation? c = some token) (rest : List Char) :
    tokens? (c :: rest) = (tokens? rest).map (token :: ·) := by
  rw [tokens?, if_neg (by simp [(punctuation_apart h).2]), h]

theorem Cuts.nil : Cuts [] [] := fun rest _ => by simp

theorem Cuts.punctuation (h : punctuation? c = some token) (ht : Cuts text tokens) :
    Cuts (c :: text) (token :: tokens) := by
  intro rest hrest
  rw [List.cons_append, tokens?_punctuation h, ht rest hrest, Option.map_map]
  rfl

theorem Cuts.append (h : Cuts text tokens) (h' : Cuts text' tokens') (hapart : Apart text') :
    Cuts (text ++ text') (tokens ++ tokens') := by
  intro rest hrest
  have hnext : Apart (text' ++ rest) := by
    cases text' with
    | nil => exact hrest
    | cons c text' => exact hapart
  rw [List.append_assoc, h _ hnext, h' rest hrest, Option.map_map]
  congr 1
  funext more
  simp

end Cuts

theorem isAtomChar_apart {c : Char} (h : isAtomChar c = true) :
    isBlank c = false ∧ punctuation? c = none ∧ c ≠ '"' := by
  refine ⟨?_, ?_, ?_⟩
  · cases hblank : isBlank c with
    | false => rfl
    | true =>
      simp only [isBlank, decide_eq_true_eq] at hblank
      rcases hblank with rfl | rfl | rfl | rfl <;> exact absurd h (by decide)
  · cases hp : punctuation? c with
    | none => rfl
    | some token =>
      rw [(punctuation_apart hp).1] at h
      cases h
  · rintro rfl
    exact absurd h (by decide)

/-- A word or a numeral is cut as one token. -/
theorem cuts_atom {text : List Char} {token : Token} (hne : text ≠ [])
    (hatom : text.all isAtomChar = true) (h : atom? text = some token) :
    Cuts text [token] := by
  intro rest hrest
  cases text with
  | nil => exact absurd rfl hne
  | cons c text =>
    obtain ⟨hc, htext⟩ := List.forall_mem_cons.1 (List.all_eq_true.1 hatom)
    obtain ⟨hblank, hpunctuation, hquote⟩ := isAtomChar_apart hc
    have htake : rest.takeWhile isAtomChar = [] := by
      cases rest with
      | nil => rfl
      | cons d rest => rw [List.takeWhile_cons, hrest d rfl]; rfl
    have hdrop : rest.dropWhile isAtomChar = rest := by
      cases rest with
      | nil => rfl
      | cons d rest => rw [List.dropWhile_cons, hrest d rfl]; rfl
    rw [List.cons_append, tokens?, if_neg (by simp [hblank]), hpunctuation]
    simp only [if_neg hquote, hc, if_true, List.takeWhile_append_of_pos htext, htake,
      List.append_nil, h, List.dropWhile_append_of_pos htext, hdrop]
    rfl

theorem cuts_quoted (s : List Char) : Cuts (quoted s) [.str (some (String.ofList s))] := by
  intro rest _
  have hspan := spanString_escaped s rest
  rw [quoted, List.cons_append, List.cons_append, List.append_assoc, tokens?, if_neg (by decide)]
  simp only [show punctuation? '"' = none by decide, if_true]
  split
  · next hnone => rw [List.singleton_append, hspan] at hnone; cases hnone
  · next inside rest' hsome =>
    rw [List.singleton_append, hspan] at hsome
    cases hsome
    rw [string?_escaped]
    rfl

theorem cuts_intText {n : Int} (h : (int n).wholeNumbers = true) :
    Cuts (intText n) [.atom (some (.int n))] := by
  refine cuts_atom ?_ (List.all_eq_true.2 fun c hc => ?_) (atom?_intText h)
  · unfold intText
    split
    · exact List.cons_ne_nil _ _
    · exact Nat.toDigits_ne_nil
  · rcases mem_intText hc with rfl | hdigit
    · decide
    · simp [isAtomChar, Char.isAlphanum, hdigit]

/-! ## Printed values -/

mutual

/-- The tokens of a value, its fields in the order in which they stand. -/
def tokens : Json → List Token
  | .str s => [.str (some s)]
  | .arr items => .openArr :: [.comma].intercalate (tokensOfItems items) ++ [.closeArr]
  | .obj fields => .openObj :: [.comma].intercalate (tokensOfFields fields) ++ [.closeObj]
  | value => [.atom (some value)]

def tokensOfItems : List Json → List (List Token)
  | [] => []
  | item :: rest => tokens item :: tokensOfItems rest

def tokensOfFields : List (String × Json) → List (List Token)
  | [] => []
  | (key, value) :: rest => (.str (some key) :: .colon :: tokens value) :: tokensOfFields rest

end

theorem tokens_arr (items : List Json) :
    (arr items).tokens = .openArr :: [.comma].intercalate (items.map tokens) ++ [.closeArr] := by
  have hitems : tokensOfItems items = items.map tokens := eq_map_of_cons rfl (fun _ _ => rfl) items
  rw [← hitems]
  rfl

theorem tokens_obj (fields : List (String × Json)) :
    (obj fields).tokens
      = .openObj :: [.comma].intercalate
          (fields.map fun field => .str (some field.1) :: .colon :: field.2.tokens)
        ++ [.closeObj] := by
  have hfields : tokensOfFields fields
      = fields.map fun field => .str (some field.1) :: .colon :: field.2.tokens :=
    eq_map_of_cons rfl (fun _ _ => rfl) fields
  rw [← hfields]
  rfl

theorem canonicalChars_arr (items : List Json) :
    (arr items).canonicalChars
      = '[' :: [','].intercalate (items.map canonicalChars) ++ [']'] := by
  have hitems : canonicalItems items = items.map canonicalChars :=
    eq_map_of_cons rfl (fun _ _ => rfl) items
  rw [← hitems]
  rfl

/-- The canonical text of an object has its fields in key order. -/
theorem canonicalChars_obj (fields : List (String × Json)) :
    (obj fields).canonicalChars
      = '\x7b' :: [','].intercalate
          ((KeyMap.ofList fields).map fun field => fieldText field.1 field.2.canonicalChars)
        ++ ['\x7d'] := by
  have hfields : canonicalFields fields
      = fields.map fun field => (field.1, field.2.canonicalChars) :=
    eq_map_of_cons rfl (fun _ _ => rfl) fields
  have hopened : (obj fields).canonicalChars
      = '\x7b' :: [','].intercalate ((KeyMap.ofList (canonicalFields fields)).map
          fun field => fieldText field.1 field.2) ++ ['\x7d'] := rfl
  rw [hopened, hfields, KeyMap.ofList_map, List.map_map]
  rfl

/-- Texts between commas are cut if each of them is. -/
theorem cuts_intercalate {texts : List (List Char)} {lists : List (List Token)}
    (h : List.Forall₂ Cuts texts lists) :
    Cuts ([','].intercalate texts) ([Token.comma].intercalate lists) := by
  induction h with
  | nil => exact Cuts.nil
  | @cons text list texts lists hfirst hrest ih =>
    cases hrest with
    | nil => simpa using hfirst
    | cons _ _ =>
      rw [List.intercalate_cons_cons, List.intercalate_cons_cons, List.append_assoc,
        List.append_assoc]
      exact hfirst.append (Cuts.punctuation rfl ih) (apart_punctuation rfl _)

theorem cuts_bracketed {left right : Char} {openToken closeToken : Token}
    {texts : List (List Char)} {lists : List (List Token)}
    (hleft : punctuation? left = some openToken) (hright : punctuation? right = some closeToken)
    (h : List.Forall₂ Cuts texts lists) :
    Cuts (left :: [','].intercalate texts ++ [right])
      (openToken :: [Token.comma].intercalate lists ++ [closeToken]) := by
  have hclosed : Cuts [right] [closeToken] := Cuts.punctuation hright Cuts.nil
  exact Cuts.punctuation hleft ((cuts_intercalate h).append hclosed (apart_punctuation hright []))

/-- The canonical text of a value is cut into the tokens of the value, once it
is settled. -/
theorem cuts_canonicalChars {value : Json} (h : value.wholeNumbers = true) :
    Cuts value.canonicalChars value.settled.tokens := by
  induction value using Json.induction with
  | null => exact cuts_atom (by decide) (by decide) (by decide)
  | bool value =>
    cases value with
    | true => exact cuts_atom (by decide) (by decide) (by decide)
    | false => exact cuts_atom (by decide) (by decide) (by decide)
  | int n => exact cuts_intText h
  | float bits => cases h
  | str s =>
    have hquoted := cuts_quoted s.toList
    rw [String.ofList_toList] at hquoted
    exact hquoted
  | arr items ih =>
    have hitems := wholeNumbers_arr_iff.1 h
    rw [canonicalChars_arr, settled_arr, tokens_arr, List.map_map]
    refine cuts_bracketed rfl rfl ?_
    rw [List.forall₂_map_left_iff, List.forall₂_map_right_iff, List.forall₂_same]
    exact fun item hitem => ih item hitem (hitems item hitem)
  | obj fields ih =>
    have hfields := wholeNumbers_obj_iff.1 h
    rw [canonicalChars_obj, settled_obj, tokens_obj, List.map_map]
    refine cuts_bracketed rfl rfl ?_
    rw [List.forall₂_map_left_iff, List.forall₂_map_right_iff, List.forall₂_same]
    intro field hfield
    have hmem := KeyMap.mem_of_mem_ofList hfield
    have hkey : Cuts (quoted field.1.toList) [.str (some field.1)] := by
      simpa using cuts_quoted field.1.toList
    have hvalue := ih field hmem (hfields field hmem)
    exact hkey.append (Cuts.punctuation rfl hvalue) (apart_punctuation rfl _)

end ImportChain.Json
