/-
ImportChain.Regex.Marked — the text that a pattern matches.

A pattern is followed through a text by marks on its characters: after a
character of the text has been read, the marked places of the pattern are
those that took it. `step` moves the marks over one more character and says
whether the pattern can be left in front of it. A part without marks that is
not entered is not looked at, so a search takes as many steps as the text is
long, each no larger than the part of the pattern that is marked.

Copies are written out: `b{2,4}` as `b b` and a run of two copies that may
stop after any of them, `b{2,}` as `b b b*`. Only empty matches are left to
repeat beyond the length of the text, so the counts are cut there.
-/
import ImportChain.Regex.Pattern

namespace ImportChain.Regex

/-- A pattern with marks. Where two parts are joined it is noted whether
there is a mark in them. -/
inductive Marked where
  | empty
  | look (kind : Look)
  | leaf (members : CharSet) (mark : Bool)
  | seq (active : Bool) (first second : Marked)
  | alt (active : Bool) (first second : Marked)
  /-- Copies one after the other, which may stop after any of them. -/
  | run (active : Bool) (first second : Marked)
  /-- The empty text, or a pattern or run. -/
  | optional (body : Marked)
  /-- Any number of copies. -/
  | many (body : Marked)
  deriving Repr

namespace Marked

def active : Marked → Bool
  | .empty => false
  | .look _ => false
  | .leaf _ mark => mark
  | .seq active _ _ => active
  | .alt active _ _ => active
  | .run active _ _ => active
  | .optional body => body.active
  | .many body => body.active

/-! ## Without marks -/

/-- One pattern and then another. -/
def andThen (first second : Marked) : Marked := .seq (first.active || second.active) first second

def orElse (first second : Marked) : Marked := .alt (first.active || second.active) first second

def runOn (first second : Marked) : Marked := .run (first.active || second.active) first second

/-- Neighbours joined two by two. -/
def joinPairs (join : Marked → Marked → Marked) : List Marked → List Marked
  | a :: b :: rest => join a b :: joinPairs join rest
  | rest => rest

theorem length_joinPairs_le (join : Marked → Marked → Marked) (parts : List Marked) :
    (joinPairs join parts).length ≤ parts.length := by
  fun_induction joinPairs join parts with
  | case1 a b rest ih => simp only [List.length_cons]; omega
  | case2 rest => exact Nat.le_refl _

/-- All parts joined as a tree of even depth. -/
def joinAll (join : Marked → Marked → Marked) (none : Marked) : List Marked → Marked
  | [] => none
  | [part] => part
  | a :: b :: rest => joinAll join none (join a b :: joinPairs join rest)
termination_by parts => parts.length
decreasing_by
  have := length_joinPairs_le join rest
  simp only [List.length_cons]
  omega

def ofSeq (parts : List Marked) : Marked := joinAll andThen .empty parts

def ofAlt (branches : List Marked) : Marked := joinAll orElse (.leaf [] false) branches

/-- A run of at most `most` copies. -/
def ofRun (most : Nat) (body : Marked) : Marked :=
  .optional (joinAll runOn .empty (List.replicate most body))

/-- Copies of a pattern, the counts cut at `limit`. -/
def ofCopies (limit least : Nat) (most : Option Nat) (body : Marked) : Marked :=
  let further := match most with
    | some most => ofRun (min (most - least) limit) body
    | none => .many body
  andThen (ofSeq (List.replicate (min least limit) body)) further

mutual

/-- A pattern without marks, for texts shorter than `limit`. -/
def ofPattern (limit : Nat) : Pattern → Marked
  | .empty => .empty
  | .unused _ => .empty
  | .char c => .leaf [CharSet.single c] false
  | .set members => .leaf members false
  | .look kind => .look kind
  | .repeated least most body => ofCopies limit least most (ofPattern limit body)
  | .group _ body => ofPattern limit body
  | .seq parts => ofSeq (ofPatterns limit parts)
  | .alt branches => ofAlt (ofPatterns limit branches)

def ofPatterns (limit : Nat) : List Pattern → List Marked
  | [] => []
  | p :: rest => ofPattern limit p :: ofPatterns limit rest

end

/-! ## Moving the marks -/

/-- Whether the pattern, if it is a run all of it, matches the empty text
between two characters. -/
def passable (before after : Option Char) : Marked → Bool
  | .empty => true
  | .look kind => kind.holds before after
  | .leaf _ _ => false
  | .seq _ first second => first.passable before after && second.passable before after
  | .alt _ first second => first.passable before after || second.passable before after
  | .run _ first second => first.passable before after && second.passable before after
  | .optional _ => true
  | .many _ => true

/-- Whether the pattern can be left from one of its marks. `whole` says that
a run has to come to its end. -/
def leaves (before after : Option Char) (whole : Bool) : Marked → Bool
  | .empty => false
  | .look _ => false
  | .leaf _ mark => mark
  | .seq active first second =>
    active && (second.leaves before after false ||
      (first.leaves before after false && second.passable before after))
  | .alt active first second =>
    active && (first.leaves before after false || second.leaves before after false)
  | .run active first second =>
    active && (second.leaves before after whole ||
      (first.leaves before after whole && (!whole || second.passable before after)))
  | .optional body => body.leaves before after false
  | .many body => body.leaves before after false

/-- What a step gives. -/
structure Moved where
  /-- The marks after the character. -/
  next : Marked
  /-- Whether the pattern can be left in front of the character, a run at its
  end. -/
  through : Bool
  /-- Whether the pattern can be left in front of the character. -/
  left : Bool

/-- What a step gives for a pattern that is no run. -/
def Moved.of (next : Marked) (left : Bool) : Moved := ⟨next, left, left⟩

/-- The marks moved over the next character. `entered` says whether the
pattern is entered in front of it. -/
def step (before after : Option Char) (entered : Bool) : Marked → Moved
  | .empty => .of .empty entered
  | .look kind => .of (.look kind) (entered && kind.holds before after)
  | .leaf members mark =>
    if entered || mark then .of (.leaf members (entered && after.any members.contains)) mark
    else .of (.leaf members false) false
  | .seq active first second =>
    if entered || active then
      let first := first.step before after entered
      let second := second.step before after first.left
      .of (andThen first.next second.next) second.left
    else .of (.seq active first second) false
  | .alt active first second =>
    if entered || active then
      let first := first.step before after entered
      let second := second.step before after entered
      .of (orElse first.next second.next) (first.left || second.left)
    else .of (.alt active first second) false
  | .run active first second =>
    if entered || active then
      let first := first.step before after entered
      let second := second.step before after first.through
      ⟨runOn first.next second.next, second.through, first.left || second.left⟩
    else .of (.run active first second) false
  | .optional body =>
    let body := body.step before after entered
    .of (.optional body.next) (entered || body.left)
  | .many body =>
    let entered := entered || body.leaves before after false
    .of (.many (body.step before after entered).next) entered

/-- Whether a match that may begin at any place of the rest of a text, or
that has begun already, ends somewhere. -/
def search (before : Option Char) (m : Marked) : List Char → Bool
  | [] => (m.step before none true).left
  | c :: rest =>
    let moved := m.step before (some c) true
    moved.left || search (some c) moved.next rest

end Marked

/-- Whether some part of the text matches. -/
def Pattern.isMatch (pattern : Pattern) (text : String) : Bool :=
  let chars := text.toList
  (Marked.ofPattern (chars.length + 1) pattern).search none chars

end ImportChain.Regex
