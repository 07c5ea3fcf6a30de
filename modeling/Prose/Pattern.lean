import Prose.Text.Alphabet
import Prose.Text.Blank
import Prose.Text.Bytes

/- Text patterns. Where a pattern leaves a choice, the alternatives are tried in
   order and the first one that lets the rest match is taken: a greedy repetition
   tries to go on before it stops, a lazy one tries to stop before it goes on. -/
namespace Prose

/-- The part of a declaration that a group of a pattern picks out. -/
inductive Part where
  | name | article | type | value | slots | aliasFor
  deriving DecidableEq

/-- A text pattern. -/
inductive Pattern where
  | empty
  /-- One character of a class. -/
  | char (accepts : Char → Bool)
  | seq (first second : Pattern)
  /-- Either pattern, the first one if both would do. -/
  | alt (first second : Pattern)
  /-- Any number of repetitions of a pattern that takes at least one character. -/
  | many (greedy : Bool) (item : Pattern)
  /-- A pattern whose extent is noted. -/
  | group (part : Part) (item : Pattern)
  /-- The end of the text. -/
  | stop

namespace Pattern

/-- A place in a text: what follows it and how many bytes come before it. -/
structure Place where
  rest : List Char
  offset : Nat

/-- The groups that were noted, the last one first, each from its start to its end. -/
abbrev Groups := List (Part × Nat × Nat)

/-- What is done with the place behind a match. -/
abbrev Next (α : Type) := Place → Groups → Option α

/-- Repeats `item` up to `fuel` times and goes on with `next`. -/
def repeatWith {α : Type} (greedy : Bool) (item : Place → Groups → Next α → Option α)
    (next : Next α) : Nat → Next α
  | 0 => next
  | fuel + 1 => fun place groups =>
    if greedy then
      match item place groups (repeatWith greedy item next fuel) with
      | some r => some r
      | none => next place groups
    else
      match next place groups with
      | some r => some r
      | none => item place groups (repeatWith greedy item next fuel)

/-- Matches a pattern from a place on and goes on with `next` behind it. -/
def run {α : Type} : Pattern → Place → Groups → Next α → Option α
  | empty, place, groups, next => next place groups
  | char accepts, place, groups, next =>
    match place.rest with
    | [] => none
    | c :: rest => if accepts c then next ⟨rest, place.offset + c.utf8Size⟩ groups else none
  | seq first second, place, groups, next =>
    first.run place groups fun place groups => second.run place groups next
  | alt first second, place, groups, next =>
    match first.run place groups next with
    | some r => some r
    | none => second.run place groups next
  | many greedy item, place, groups, next =>
    repeatWith greedy item.run next place.rest.length place groups
  | group part item, place, groups, next =>
    item.run place groups fun after groups => next after ((part, place.offset, after.offset) :: groups)
  | stop, place, groups, next => if place.rest.isEmpty then next place groups else none

/-- The place behind a match at the start of `place`, with the groups. -/
def matchAt (p : Pattern) (place : Place) : Option (Place × Groups) :=
  p.run place [] fun after groups => some (after, groups)

/-- The groups of a match at the start of a text. -/
def groups? (p : Pattern) (text : List Char) : Option Groups :=
  (p.matchAt ⟨text, 0⟩).map Prod.snd

/-- The matches in a text from left to right, none overlapping the one before,
    each from its start to its end. -/
def matchesFrom (p : Pattern) (place : Place) : List (Nat × Nat) :=
  match _hr : place.rest with
  | [] => []
  | c :: rest =>
    match p.matchAt place with
    | some (after, _) =>
      -- a match of nothing is none
      if after.rest.length < place.rest.length then
        (place.offset, after.offset) :: matchesFrom p after
      else matchesFrom p ⟨rest, place.offset + c.utf8Size⟩
    | none => matchesFrom p ⟨rest, place.offset + c.utf8Size⟩
termination_by place.rest.length
decreasing_by all_goals simp_all

/-! ## Building blocks -/

/-- At least one repetition. -/
def oneOrMore (greedy : Bool) (item : Pattern) : Pattern := seq item (many greedy item)

/-- The pattern, or nothing if it does not match. -/
def maybe (item : Pattern) : Pattern := alt item empty

/-- The patterns one after the other. -/
def all (items : List Pattern) : Pattern := items.foldr seq empty

/-- Any character. -/
def any : Pattern := char fun _ => true

/-- One or more blanks. -/
def blanks : Pattern := oneOrMore true (char Text.isBlank)

/-- Any number of blanks. -/
def maybeBlanks : Pattern := many true (char Text.isBlank)

/-- A letter of `a` to `z` in either case. The long s and the kelvin sign are
    further forms of `s` and `k`. -/
def isBasicLetter (c : Char) : Bool :=
  ('a' ≤ c.toLower && c.toLower ≤ 'z') || c == '\u017f' || c == '\u212a'

/-- Whether `c` is some form of the small letter `letter`. -/
def isFormOf (letter c : Char) : Bool :=
  c.toLower == letter || (letter == 's' && c == '\u017f') || (letter == 'k' && c == '\u212a')

/-- A word in either case. -/
def word (s : String) : Pattern := all (s.toList.map fun letter => char (isFormOf letter))

/-- A word that begins with a basic letter, hyphens included. -/
def plainWord : Pattern :=
  seq (char isBasicLetter) (many true (char fun c => Text.isWordChar c || c == '-'))

/-- Words with blanks between them. -/
def plainWords (greedy : Bool) : Pattern := seq plainWord (many greedy (seq blanks plainWord))

/-- `a` or `an`. -/
def indefinite : Pattern := seq (word "a") (maybe (word "n"))

/-- `a`, `an` or `some`, noted. -/
def article : Pattern := group .article (alt indefinite (word "some"))

end Pattern

end Prose
