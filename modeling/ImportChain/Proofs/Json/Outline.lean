/-
ImportChain.Proofs.Json.Outline — what a canonical text tells of any value.

The numbers of a value are not asked about here, whole ones or others: an
outline has `null` in their place. A canonical text tells the outline of its
value, whatever follows (`tells_canonicalChars`), since a word or a numeral
ends where its characters do, a string at its quote, and a container at its
bracket, item by item (`eq_of_listed`).

`outline_eq_of_canonical_eq` is the main statement. It needs no condition on
numbers, as reading a text back does.
-/
import ImportChain.Proofs.Json.Cutting

namespace ImportChain.Json

/-! ## Outlines -/

mutual

/-- A value with `null` for every number. -/
def outline : Json → Json
  | .int _ => .null
  | .float _ => .null
  | .arr items => .arr (outlineItems items)
  | .obj fields => .obj (outlineFields fields)
  | value => value

def outlineItems : List Json → List Json
  | [] => []
  | item :: rest => outline item :: outlineItems rest

def outlineFields : List (String × Json) → List (String × Json)
  | [] => []
  | (key, value) :: rest => (key, outline value) :: outlineFields rest

end

theorem outline_arr (items : List Json) : (arr items).outline = .arr (items.map outline) := by
  have hitems : outlineItems items = items.map outline := eq_map_of_cons rfl (fun _ _ => rfl) items
  rw [← hitems]
  rfl

theorem outline_obj (fields : List (String × Json)) :
    (obj fields).outline = .obj (fields.map fun field => (field.1, field.2.outline)) := by
  have hfields : outlineFields fields = fields.map fun field => (field.1, field.2.outline) :=
    eq_map_of_cons rfl (fun _ _ => rfl) fields
  rw [← hfields]
  rfl

/-- Settling does not look at numbers. -/
theorem settled_outline (value : Json) : value.outline.settled = value.settled.outline := by
  induction value using Json.induction with
  | null | bool | int | float | str => rfl
  | arr items ih =>
    simp only [outline_arr, settled_arr, List.map_map, arr.injEq]
    exact List.map_congr_left ih
  | obj fields ih =>
    simp only [outline_obj, settled_obj, KeyMap.ofList_map, List.map_map, obj.injEq]
    refine List.map_congr_left fun field hfield => ?_
    simp only [Function.comp, ih field (KeyMap.mem_of_mem_ofList hfield)]

/-! ## Numerals -/

/-- A character of a numeral, or of the word that stands for what is no
number. -/
def isNumeralChar (c : Char) : Bool := c.isDigit || ['-', '+', '.', 'e', 'n', 'u', 'l'].contains c

theorem isAtomChar_of_isNumeralChar {c : Char} (h : isNumeralChar c = true) :
    isAtomChar c = true := by
  rcases Bool.or_eq_true_iff.1 h with hdigit | hother
  · simp [isAtomChar, Char.isAlphanum, hdigit]
  · rw [List.contains_iff_mem] at hother
    have hall : ['-', '+', '.', 'e', 'n', 'u', 'l'].all isAtomChar = true := by decide
    exact List.all_eq_true.1 hall c hother

theorem all_natText (n : Nat) : (natText n).all isNumeralChar = true :=
  List.all_eq_true.2 fun c hc => by rw [isNumeralChar, isDigit_of_mem_natText hc, Bool.true_or]

theorem intText_ne_nil (n : Int) : intText n ≠ [] := by
  unfold intText
  split
  · exact List.cons_ne_nil _ _
  · exact Nat.toDigits_ne_nil

theorem all_intText (n : Int) : (intText n).all isNumeralChar = true := by
  unfold intText
  split
  · rw [List.all_cons, all_natText]
    rfl
  · exact all_natText _

theorem all_replicate_zero (n : Nat) : (List.replicate n '0').all isNumeralChar = true := by
  rw [List.all_eq_true]
  intro c hc
  rw [List.eq_of_mem_replicate hc]
  rfl

theorem all_positional (d : Decimal) : d.positional.all isNumeralChar = true := by
  simp only [Decimal.positional]
  split
  · simp only [List.all_append, all_natText, all_replicate_zero]
    rfl
  split
  · have hall := all_natText d.digits
    rw [← List.take_append_drop ((natText d.digits).length - (-d.exponent).toNat) (natText d.digits),
      List.all_append, Bool.and_eq_true] at hall
    rw [List.all_append, List.all_cons, hall.1, hall.2]
    rfl
  · simp only [List.cons_append, List.all_cons, List.all_append, all_natText, all_replicate_zero]
    rfl

theorem all_scientific (d : Decimal) : d.scientific.all isNumeralChar = true := by
  have hdigits := all_natText d.digits
  simp only [Decimal.scientific, List.all_append, List.all_cons, Bool.and_eq_true]
  refine ⟨?_, rfl, ?_⟩
  · split
    · next h =>
      rw [h, List.all_cons, Bool.and_eq_true] at hdigits
      rw [List.all_cons, List.all_cons, hdigits.1, hdigits.2]
      rfl
    · exact hdigits
  · split
    · exact all_intText _
    · rw [List.all_cons, all_intText]
      rfl

/-- A double is written with a numeral or a word, possibly after a sign. -/
theorem floatText_cases (bits : UInt64) :
    ∃ text, text ≠ [] ∧ text.all isNumeralChar = true
      ∧ (floatText bits = text ∨ floatText bits = '-' :: text) := by
  have hdecimal (d : Decimal) : d.text ≠ [] ∧ d.text.all isNumeralChar = true := by
    unfold Decimal.text
    simp only
    split
    · refine ⟨?_, all_positional d⟩
      simp only [Decimal.positional]
      split_ifs <;> simp
    · exact ⟨by simp [Decimal.scientific], all_scientific d⟩
  have hsigned (text : List Char) (sign : Prop) [Decidable sign] :
      (if sign then '-' :: text else text) = text
        ∨ (if sign then '-' :: text else text) = '-' :: text := by
    by_cases h : sign
    · exact .inr (if_pos h)
    · exact .inl (if_neg h)
  refine ⟨_, ?_, ?_, hsigned _ _⟩
  · split
    · decide
    split
    · exact (hdecimal _).1
    · decide
  · split
    · decide
    split
    · exact (hdecimal _).2
    · decide

/-! ## Words and numerals -/

/-- The character that a value begins with, if it is neither a word nor a
numeral. -/
def opening : Json → Option Char
  | .str _ => some '"'
  | .arr _ => some '['
  | .obj _ => some '\x7b'
  | _ => none

/-- The outline of a word or a numeral. -/
def ofWord (text : List Char) : Json :=
  if text = ['t', 'r', 'u', 'e'] then .bool true
  else if text = ['f', 'a', 'l', 's', 'e'] then .bool false
  else .null

/-- The text of a word or a numeral. -/
structure IsWord (text : List Char) : Prop where
  ne_nil : text ≠ []
  chars : text.all isAtomChar = true

variable {a b : Json} {x y : List Char}

/-- The text of a number. -/
theorem isWord_of_numeral {text : List Char} (hne : text ≠ [])
    (hall : text.all isNumeralChar = true) : IsWord text ∧ ofWord text = .null := by
  rw [List.all_eq_true] at hall
  have htrue : text ≠ ['t', 'r', 'u', 'e'] := by
    rintro rfl
    exact absurd (hall 't' (by decide)) (by decide)
  have hfalse : text ≠ ['f', 'a', 'l', 's', 'e'] := by
    rintro rfl
    exact absurd (hall 'f' (by decide)) (by decide)
  have hchars : text.all isAtomChar = true :=
    List.all_eq_true.2 fun c hc => isAtomChar_of_isNumeralChar (hall c hc)
  exact ⟨⟨hne, hchars⟩, by rw [ofWord, if_neg htrue, if_neg hfalse]⟩

theorem isWord_canonicalChars (h : a.opening = none) :
    IsWord a.canonicalChars ∧ ofWord a.canonicalChars = a.outline := by
  cases a with
  | null => exact ⟨⟨by decide, by decide⟩, by decide⟩
  | bool value =>
    cases value with
    | true => exact ⟨⟨by decide, by decide⟩, by decide⟩
    | false => exact ⟨⟨by decide, by decide⟩, by decide⟩
  | int n => exact isWord_of_numeral (intText_ne_nil n) (all_intText n)
  | float bits =>
    show IsWord (floatText bits) ∧ ofWord (floatText bits) = .null
    obtain ⟨text, hne, hall, hbits | hbits⟩ := floatText_cases bits
    · rw [hbits]
      exact isWord_of_numeral hne hall
    · rw [hbits]
      exact isWord_of_numeral (List.cons_ne_nil _ _) (by rw [List.all_cons, hall]; rfl)
  | str | arr | obj => cases h

/-- How a value begins, whatever follows. -/
theorem head?_canonicalChars (a : Json) (x : List Char) :
    (a.canonicalChars ++ x).head?.filter (fun c => !isAtomChar c) = a.opening := by
  cases ha : a.opening with
  | none =>
    obtain ⟨hne, hchars⟩ := (isWord_canonicalChars ha).1
    obtain ⟨c, text, htext⟩ := List.exists_cons_of_ne_nil hne
    have hc := List.all_eq_true.1 hchars c (htext ▸ List.mem_cons_self)
    simp [htext, hc, Option.filter]
  | some c =>
    cases a <;> cases ha
    · rfl
    · rfl
    · rfl

theorem opening_eq_of_append_eq (h : a.canonicalChars ++ x = b.canonicalChars ++ y) :
    a.opening = b.opening := by
  rw [← head?_canonicalChars a x, h, head?_canonicalChars]

theorem IsWord.takeWhile_append {text : List Char} (h : IsWord text) (hx : Apart x) :
    (text ++ x).takeWhile isAtomChar = text := by
  rw [List.takeWhile_append_of_pos (List.all_eq_true.1 h.chars)]
  cases x with
  | nil => simp
  | cons c x => rw [List.takeWhile_cons, hx c rfl]; simp

/-! ## Texts that tell what they were written for -/

/-- The text of `a` tells what is at the core of `a`, whatever follows. -/
def Tells {α β : Type} (text : α → List Char) (core : α → β) (a : α) : Prop :=
  ∀ (b : α) (x y : List Char), Apart x → Apart y → text a ++ x = text b ++ y →
    core a = core b ∧ x = y

section Listed

variable {α β : Type} {text : α → List Char} {core : α → β} {close : Char} {token : Token}

theorem apart_followers (hclose : punctuation? close = some token) (items : List α)
    (z : List Char) : Apart (items.flatMap (',' :: text ·) ++ close :: z) := by
  cases items with
  | nil => exact apart_punctuation hclose z
  | cons item items => exact apart_punctuation (c := ',') rfl _

/-- Further items, each after a comma, and the end after them. -/
theorem eq_of_followers (hclose : punctuation? close = some token) (hcomma : close ≠ ',') :
    ∀ {as bs : List α} {x y : List Char}, (∀ a ∈ as, Tells text core a) →
      as.flatMap (',' :: text ·) ++ close :: x = bs.flatMap (',' :: text ·) ++ close :: y →
      as.map core = bs.map core ∧ x = y
  | [], [], x, y, _, h => ⟨rfl, (List.cons.inj h).2⟩
  | [], b :: bs, x, y, _, h => absurd (List.cons.inj h).1 hcomma
  | a :: as, [], x, y, _, h => absurd (List.cons.inj h).1.symm hcomma
  | a :: as, b :: bs, x, y, htells, h => by
      obtain ⟨ha, has⟩ := List.forall_mem_cons.1 htells
      -- Behind the comma the first two items end together, for what follows each
      -- of them begins with punctuation.
      simp only [List.flatMap_cons, List.cons_append, List.append_assoc, List.cons.injEq,
        true_and] at h
      obtain ⟨hcore, hrest⟩ := ha b _ _ (apart_followers hclose as x)
        (apart_followers hclose bs y) h
      obtain ⟨hcores, hxy⟩ := eq_of_followers hclose hcomma has hrest
      exact ⟨by rw [List.map_cons, List.map_cons, hcore, hcores], hxy⟩

/-- Items between commas and the end after them. -/
theorem eq_of_listed (hclose : punctuation? close = some token) (hcomma : close ≠ ',')
    (hopen : ∀ a rest, (text a ++ rest).head? ≠ some close) {as bs : List α} {x y : List Char}
    (htells : ∀ a ∈ as, Tells text core a)
    (h : [','].intercalate (as.map text) ++ close :: x
      = [','].intercalate (bs.map text) ++ close :: y) :
    as.map core = bs.map core ∧ x = y := by
  have hcons (a : α) (as : List α) (z : List Char) :
      [','].intercalate ((a :: as).map text) ++ close :: z
        = text a ++ (as.flatMap (',' :: text ·) ++ close :: z) := by
    rw [List.map_cons, intercalate_cons, List.flatMap_map, List.append_assoc]
    rfl
  cases as with
  | nil =>
    cases bs with
    | nil => exact ⟨rfl, (List.cons.inj h).2⟩
    | cons b bs =>
      rw [hcons] at h
      exact absurd (congrArg List.head? h).symm (hopen b _)
  | cons a as =>
    cases bs with
    | nil =>
      rw [hcons] at h
      exact absurd (congrArg List.head? h) (hopen a _)
    | cons b bs =>
      rw [hcons, hcons] at h
      -- With a comma before each first item, all of them are followers.
      refine eq_of_followers hclose hcomma htells ?_
      simp only [List.flatMap_cons, List.cons_append, List.append_assoc, h]

end Listed

/-! ## Values -/

/-- A string ends at its quote. -/
theorem eq_of_quoted {s t x y : List Char} (h : quoted s ++ x = quoted t ++ y) :
    s = t ∧ x = y := by
  simp only [quoted, List.cons_append, List.append_assoc, List.nil_append, List.cons.injEq,
    true_and] at h
  have hspan := spanString_escaped s x
  rw [h, spanString_escaped] at hspan
  obtain ⟨hinside, hrest⟩ := Prod.mk.inj (Option.some.inj hspan)
  have hstring := string?_escaped s
  rw [← hinside, string?_escaped] at hstring
  simp only [Option.some.injEq, Token.str.injEq, String.ofList_inj] at hstring
  exact ⟨hstring.symm, hrest.symm⟩

/-- A word or a numeral ends where its characters do. -/
theorem tells_word (h : a.opening = none) : Tells canonicalChars (·.settled.outline) a := by
  intro b x y hx hy heq
  have hb := (opening_eq_of_append_eq heq).symm.trans h
  obtain ⟨hwordA, houtlineA⟩ := isWord_canonicalChars h
  obtain ⟨hwordB, houtlineB⟩ := isWord_canonicalChars hb
  have htext := hwordA.takeWhile_append hx
  rw [heq, hwordB.takeWhile_append hy] at htext
  have hsettled {c : Json} (hc : c.opening = none) : c.settled = c := by
    cases c <;> first | rfl | cases hc
  refine ⟨?_, List.append_cancel_left (htext ▸ heq)⟩
  show a.settled.outline = b.settled.outline
  rw [hsettled h, hsettled hb, ← houtlineA, ← houtlineB, htext]

theorem tells_str (s : String) : Tells canonicalChars (·.settled.outline) (.str s) := by
  intro b x y _ _ heq
  have hb := opening_eq_of_append_eq heq
  cases b <;> cases hb
  next t =>
    obtain ⟨hst, hxy⟩ := eq_of_quoted heq
    exact ⟨by rw [String.toList_inj.1 hst], hxy⟩

theorem head?_canonicalChars_ne (a : Json) (x : List Char) :
    (a.canonicalChars ++ x).head? ≠ some ']' := by
  intro hhead
  have hopening := head?_canonicalChars a x
  rw [hhead] at hopening
  cases a <;> cases hopening

theorem tells_arr {items : List Json}
    (h : ∀ item ∈ items, Tells canonicalChars (·.settled.outline) item) :
    Tells canonicalChars (·.settled.outline) (.arr items) := by
  intro b x y hx hy heq
  have hb := opening_eq_of_append_eq heq
  cases b <;> cases hb
  next others =>
    simp only [canonicalChars_arr, List.cons_append, List.append_assoc, List.nil_append,
      List.cons.injEq, true_and] at heq
    obtain ⟨hitems, hxy⟩ := eq_of_listed rfl (by decide) head?_canonicalChars_ne h heq
    refine ⟨?_, hxy⟩
    simp only [settled_arr, outline_arr, List.map_map]
    exact congrArg Json.arr hitems

/-- A field has its key as a string and its value after a colon. -/
theorem tells_field {field : String × Json}
    (h : Tells canonicalChars (·.settled.outline) field.2) :
    Tells (fun field : String × Json => fieldText field.1 field.2.canonicalChars)
      (fun field => (field.1, field.2.settled.outline)) field := by
  intro other x y hx hy heq
  simp only [fieldText, List.append_assoc, List.cons_append] at heq
  obtain ⟨hkey, hvalue⟩ := eq_of_quoted heq
  obtain ⟨hcore, hxy⟩ := h other.2 x y hx hy (List.cons.inj hvalue).2
  exact ⟨Prod.ext (String.toList_inj.1 hkey) hcore, hxy⟩

theorem tells_obj {fields : List (String × Json)}
    (h : ∀ field ∈ fields, Tells canonicalChars (·.settled.outline) field.2) :
    Tells canonicalChars (·.settled.outline) (.obj fields) := by
  intro b x y hx hy heq
  have hb := opening_eq_of_append_eq heq
  cases b <;> cases hb
  next others =>
    simp only [canonicalChars_obj, List.cons_append, List.append_assoc, List.nil_append,
      List.cons.injEq, true_and] at heq
    obtain ⟨hfields, hxy⟩ := eq_of_listed rfl (by decide)
      (fun field rest => by simp [fieldText, quoted])
      (fun field hfield => tells_field (h field (KeyMap.mem_of_mem_ofList hfield))) heq
    refine ⟨?_, hxy⟩
    simp only [settled_obj, outline_obj, List.map_map]
    exact congrArg Json.obj hfields

/-- A canonical text tells the outline of its value, whatever follows. -/
theorem tells_canonicalChars (value : Json) :
    Tells canonicalChars (·.settled.outline) value := by
  induction value using Json.induction with
  | null | bool | int | float => exact tells_word rfl
  | str s => exact tells_str s
  | arr items ih => exact tells_arr ih
  | obj fields ih => exact tells_obj ih

/-- Values with one canonical text are the same but for their numbers and the
order of their fields. -/
theorem outline_eq_of_canonical_eq (h : a.canonical = b.canonical) :
    a.settled.outline = b.settled.outline := by
  have hchars : a.canonicalChars ++ [] = b.canonicalChars ++ [] := by
    rw [List.append_nil, List.append_nil]
    exact String.ofList_inj.1 h
  exact (tells_canonicalChars a b [] [] (fun _ hc => nomatch hc) (fun _ hc => nomatch hc) hchars).1

end ImportChain.Json
