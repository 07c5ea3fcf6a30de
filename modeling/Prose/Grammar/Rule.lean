import Prose.Settings.Basic
import Prose.Tree.Basic

/- Rules of the grammar. A rule reads tokens from a cursor on and gives a value
   or nothing. What it notes on the way stays noted when it fails: the furthest
   token at which something else was expected, with what was expected there, and
   the results that are kept for later. Only the cursor goes back, and only where
   a rule is attempted. -/
namespace Prose.Grammar

/-- A run of tokens to be read as one sentence, and how to read it. -/
structure Phrase where
  tokens : List Token
  /-- The offset at which the run ends. -/
  stopAt : Nat
  /-- Whether results are kept. -/
  memoize : Bool
  /-- How many more levels of nesting there may be. -/
  room : Nat
  /-- Reads the tokens of a branch as a statement of their own and says whether
      all of it could be read. -/
  branch : List Token → Stmt × Bool

namespace Phrase

/-- The token behind the last one. -/
def stop (p : Phrase) : Token := ⟨.stop, "", p.stopAt, p.stopAt⟩

/-- The number of tokens, and so the index of the closing token. -/
def size (p : Phrase) : Nat := p.tokens.length

/-- The token at an index, or the closing token. -/
def tokenAt (p : Phrase) (i : Nat) : Token := p.tokens[i]?.getD p.stop

/-- The kind of the token at an index. -/
def kindAt (p : Phrase) (i : Nat) : Kind := (p.tokenAt i).kind

/-- The tokens from one index up to another. -/
def between (p : Phrase) (first last : Nat) : List Token := (p.tokens.drop first).take (last - first)

/-- The index of the first token from `first` on that has one of the kinds. -/
def find? (p : Phrase) (first : Nat) (kinds : List Kind) : Option Nat :=
  ((p.tokens.drop first).findIdx? fun t => kinds.contains t.kind).map (· + first)

/-- The span of the tokens from index `first` up to `last`, or of the token at
    `first` if there are none. -/
def spanBetween (p : Phrase) (first last : Nat) : Span :=
  let start := p.tokenAt first
  let final := if first < last then p.tokenAt (last - 1) else start
  ⟨start.start, max final.stop start.start⟩

end Phrase

/-- The rules of expressions whose results are kept. -/
inductive Kept where
  | expression | arithmetic
  deriving DecidableEq

/-- A kept result: what the rule gave and where it stopped, or that it failed. -/
abbrev Result (α : Type) := Option (α × Nat)

/-- What the reading of a phrase has noted so far. -/
structure Progress where
  pos : Nat := 0
  /-- The furthest position at which something else was expected. -/
  furthest : Nat := 0
  /-- What was expected there, each thing once, in the order of the notes. -/
  expected : List String := []
  /-- Results of the rules of expressions, by rule and position. -/
  expressions : List ((Kept × Nat) × Result Expr) := []
  /-- Results of the rule of references, by position and room. -/
  references : List ((Nat × Nat) × Result Reference) := []

/-- Notes that something was expected at the cursor. -/
def Progress.miss (s : Progress) (what : String) : Progress :=
  -- what was expected earlier in the phrase no longer counts
  let s := if s.furthest < s.pos then { s with furthest := s.pos, expected := [] } else s
  if s.pos = s.furthest ∧ what ∉ s.expected then { s with expected := s.expected ++ [what] } else s

/-- A rule of the grammar. -/
def Rule (α : Type) := Progress → Option α × Progress

namespace Rule

instance : Monad Rule where
  pure a := fun s => (some a, s)
  bind x f := fun s =>
    match x s with
    | (some a, s) => f a s
    | (none, s) => (none, s)

variable {α : Type}

/-- Fails, noting what was expected at the cursor. -/
def fail (what : String) : Rule α := fun s => (none, s.miss what)

/-- The cursor. -/
def position : Rule Nat := fun s => (some s.pos, s)

/-- Puts the cursor at an index. -/
def moveTo (i : Nat) : Rule Unit := fun s => (some (), { s with pos := i })

/-- Goes back to where the rule started if it fails. -/
def attempt (x : Rule α) : Rule α := fun s =>
  match x s with
  | (none, t) => (none, { t with pos := s.pos })
  | r => r

/-- Gives what a rule gives, or `none` where it fails, with the cursor left where
    the rule left it. -/
def outcome (x : Rule α) : Rule (Option α) := fun s =>
  match x s with
  | (a, s) => (some a, s)

/-- The first of some rules that succeeds. -/
def firstOf : List (Rule α) → Rule α
  | [] => fun s => (none, s)
  | x :: later => fun s =>
    match attempt x s with
    | (some a, s) => (some a, s)
    | (none, s) => firstOf later s

end Rule

open Rule

namespace Phrase

variable (p : Phrase) {α : Type}

/-- The kind of the token at the cursor. -/
def here : Rule Kind := fun s => (some (p.kindAt s.pos), s)

/-- Whether the token at the cursor has the kind. -/
def at? (k : Kind) : Rule Bool := fun s => (some (p.kindAt s.pos == k), s)

/-- Whether the token at the cursor has one of the kinds. -/
def atAny? (kinds : List Kind) : Rule Bool := fun s => (some (kinds.contains (p.kindAt s.pos)), s)

/-- Takes the token at the cursor. The closing token is never passed. -/
def advance : Rule Token := fun s =>
  (some (p.tokenAt s.pos), { s with pos := if s.pos < p.size then s.pos + 1 else s.pos })

/-- Takes the token at the cursor, if there is one of the kinds. -/
def skipAny (kinds : List Kind) : Rule Unit := do
  if ← p.atAny? kinds then let _ ← p.advance

/-- Takes a token of the kind. -/
def eat (k : Kind) : Rule Token := do
  if ← p.at? k then p.advance else fail k.describe

/-- Takes a token of one of the kinds, which are described together. -/
def eatAny (kinds : List Kind) (description : String) : Rule Token := do
  if ← p.atAny? kinds then p.advance else fail description

/-- What the rule gives, if no token is left behind it. -/
def complete (x : Rule α) : Rule α := attempt do
  let a ← x
  if ← p.at? .stop then pure a else fail Kind.stop.describe

/-- The first of some rules that takes all tokens. -/
def firstComplete (xs : List (Rule α)) : Rule α := firstOf (xs.map p.complete)

/-- The span from the token at index `first` up to the cursor. -/
def spanFrom (first : Nat) : Rule Span := fun s => (some (p.spanBetween first s.pos), s)

/-- Takes a kept result instead of running the rule again. -/
def restore (r : Result α) : Rule α := fun s =>
  match r with
  | some (a, stop) => (some a, { s with pos := stop })
  | none => (none, s)

/-- Runs a rule and keeps what it gave. -/
def keep (store : Progress → Result α → Progress) (x : Rule α) : Rule α := fun s =>
  match attempt x s with
  | (some a, t) => (some a, store t (some (a, t.pos)))
  | (none, t) => (none, store t none)

/-- Runs a rule of expressions once for each position. -/
def keptExpression (rule : Kept) (x : Rule Expr) : Rule Expr := fun s =>
  if p.memoize then
    match s.expressions.lookup (rule, s.pos) with
    | some r => restore r s
    | none => keep (fun t r => { t with expressions := ((rule, s.pos), r) :: t.expressions }) x s
  else attempt x s

/-- Runs the rule of references once for each position and room. -/
def keptReference (room : Nat) (x : Rule Reference) : Rule Reference := fun s =>
  if p.memoize then
    match s.references.lookup (s.pos, room) with
    | some r => restore r s
    | none => keep (fun t r => { t with references := ((s.pos, room), r) :: t.references }) x s
  else attempt x s

end Phrase

end Prose.Grammar
