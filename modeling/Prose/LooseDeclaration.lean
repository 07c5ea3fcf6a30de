import Prose.Pattern
import Prose.Text.Case
import Prose.Text.Integer
import Prose.Tree.Basic

/- Loose declarations. A sentence that the grammar rejects may still have the
   outline of a declaration, for instance when a name contains keywords. Such a
   sentence is recognised by its text, and the tree is the one that the grammar
   would have built. -/
namespace Prose.LooseDeclaration

open Pattern

/-- Something short, blanks included. -/
def something : Pattern := oneOrMore false any

/-- Something short that does not start with a blank. -/
def solid : Pattern := seq (char fun c => !Text.isBlank c) (many false any)

/-- `the <name> is|are [<article>] <type> [equal(s) [to] <value>]` -/
def variablePattern : Pattern := all
  [word "the", blanks, group .name something, blanks, alt (word "is") (word "are"), blanks,
   maybe (seq article blanks), group .type (plainWords false),
   maybe (all [blanks, word "equal", maybe (word "s"), maybe (seq blanks (word "to")), blanks,
     group .value something]),
   maybeBlanks, stop]

/-- `a <name> has <slots>` -/
def slotsPattern : Pattern := all
  [indefinite, blanks, group .name something, blanks, word "has", blanks,
   group .slots something, maybeBlanks, stop]

/-- `a <name> is [<article>] <base> with <slots>` -/
def baseAndSlotsPattern : Pattern := all
  [indefinite, blanks, group .name something, blanks, word "is", blanks,
   maybe (seq article blanks), group .type (plainWords false), blanks, word "with", blanks,
   group .slots something, maybeBlanks, stop]

/-- `a <name> is [<article>] <base>` -/
def basePattern : Pattern := all
  [indefinite, blanks, group .name something, blanks, word "is", blanks,
   maybe (seq article blanks), group .type (plainWords true), maybeBlanks, stop]

/-- `<article> <name> [is [a|an|the] <alias>|at the <alias>]` -/
def slotPattern : Pattern := all
  [article, blanks, group .name solid,
   maybe (all [blanks,
     alt (all [word "is", blanks, maybe (seq (alt indefinite (word "the")) blanks)])
       (all [word "at", blanks, word "the", blanks]),
     group .aliasFor solid]),
   maybeBlanks, stop]

/-- A comma, an `and` or both. -/
def separatorPattern : Pattern :=
  alt (all [maybeBlanks, char (· == ','), maybeBlanks, maybe (seq (word "and") blanks)])
    (all [blanks, word "and", blanks])

/-- Why a sentence is not a loose declaration. -/
inductive Reason where
  | noPattern
  | pointerWithoutTarget
  | withWithoutSlots
  | notSlot (piece : String)
  | notLiteral (text : String)

/-- The wording of a reason. -/
def Reason.message : Reason → String
  | noPattern => "no declaration pattern matches"
  | pointerWithoutTarget => "pointer declarations need a target type"
  | withWithoutSlots => "'with' needs a slot list"
  | notSlot piece => "'" ++ piece ++ "' is not a slot"
  | notLiteral text => "initializer '" ++ text ++ "' is not a literal"

/-- A sentence that is not a loose declaration, and why. -/
structure Failure where
  sentence : String
  reason : Reason

/-- The message of a failure. -/
def Failure.message (f : Failure) : String :=
  "fallback could not classify '" ++ f.sentence ++ "': " ++ f.reason.message

/-- A part of a text with the span that it has in the document. -/
structure Piece where
  text : List Char
  span : Span

/-- The words of a text with single spaces. -/
def collapse (text : List Char) : String :=
  " ".intercalate ((Text.blankSeparated text).map String.ofList)

/-- A group of a match in a text that starts at byte `start` of the document. -/
def piece? (text : List Char) (start : Nat) (groups : Groups) (part : Part) : Option Piece :=
  (groups.lookup part).map fun (first, last) =>
    ⟨Text.slice text first last, ⟨start + first, start + last⟩⟩

/-- The name that a match noted. -/
def nameOf (text : List Char) (groups : Groups) : String :=
  match piece? text 0 groups .name with
  | some piece => collapse piece.text
  | none => ""

/-- Whether the noted article is `some`. -/
def isCollection (text : List Char) (groups : Groups) : Bool :=
  match piece? text 0 groups .article with
  | some piece => Text.sameAsciiLetters (String.ofList piece.text) "some"
  | none => false

/-- The type name of a piece. -/
def typeNameOf (text : List Char) (groups : Groups) (piece : Piece) : TypeName :=
  ⟨collapse piece.text, isCollection text groups, piece.span⟩

/-- A number or a text in double quotes. -/
def literal (piece : Piece) : Except Reason Expr :=
  let raw := Text.trim piece.text
  match Text.readInteger (String.ofList raw) with
  | some n => .ok (.int n piece.span)
  | none =>
    if 2 ≤ raw.length ∧ raw.head? = some '"' ∧ raw.getLast? = some '"' then
      .ok (.text (String.ofList (raw.drop 1).dropLast) piece.span)
    else .error (.notLiteral (String.ofList raw))

/-- The parts of a slot list between its separators, each with the bytes before it. -/
def slotTexts (text : List Char) : List (Nat × List Char) :=
  let found := separatorPattern.matchesFrom ⟨text, 0⟩
  let starts := 0 :: found.map Prod.snd
  let stops := found.map Prod.fst ++ [Text.byteLength text]
  (starts.zip stops).map fun (first, last) => (first, Text.slice text first last)

/-- A slot whose text starts at byte `start` of the document. -/
def slot (start : Nat) (text : List Char) : Except Reason Slot :=
  match slotPattern.groups? text with
  | none => .error (.notSlot (String.ofList (Text.trim text)))
  | some groups =>
    .ok ⟨nameOf text groups, (piece? text 0 groups .aliasFor).map fun p => collapse p.text,
      isCollection text groups, ⟨start, start + Text.byteLength text⟩⟩

/-- The slots of a slot list. -/
def slotList (list : Piece) : Except Reason (List Slot) :=
  (slotTexts list.text).mapM fun (before, text) => slot (list.span.start + before) text

/-- A shape declaration, if every slot of its list can be read. -/
def shape (name : String) (base : Option TypeName) (list : Option Piece) (span : Span) :
    Except Reason Stmt := do
  let slots ← list.mapM slotList
  return .shapeDeclaration ⟨name, base, slots, span⟩ span

/-- A variable declaration, if its initial value is a literal. -/
def variableOf (text : List Char) (span : Span) (groups : Groups) (type : Piece) :
    Except Reason Stmt := do
  let value ← (piece? text span.start groups .value).mapM literal
  return .variableDeclaration ⟨nameOf text groups, typeNameOf text groups type, value, span⟩ span

/-- A shape that has a base and no slots. A pointer is not such a shape, and a
    `with` promises slots. -/
def plainShape (text : List Char) (span : Span) (groups : Groups) (base : Piece) :
    Except Reason Stmt :=
  if Text.sameAsciiLetters (String.ofList base.text) "pointer" then .error .pointerWithoutTarget
  else if (Text.blankSeparated base.text).any fun w =>
      Text.sameAsciiLetters (String.ofList w) "with" then
    .error .withWithoutSlots
  else shape (nameOf text groups) (some (typeNameOf text groups base)) none span

/-- Reads a text with one pattern. The second component names the group that the
    pattern cannot match without. -/
def withPattern (text : List Char) (pattern : Pattern) (part : Part) (start : Nat) :
    Option (Groups × Piece) := do
  let groups ← pattern.groups? text
  let piece ← piece? text start groups part
  return (groups, piece)

/-- Reads a text that covers `span` as a declaration. Slots are looked for before a
    base, because what a slot stands for may be announced by `is`, too. -/
def classify (text : List Char) (span : Span) : Except Reason Stmt :=
  match withPattern text variablePattern .type span.start with
  | some (groups, type) => variableOf text span groups type
  | none =>
    match withPattern text slotsPattern .slots span.start with
    | some (groups, list) => shape (nameOf text groups) none (some list) span
    | none =>
      match withPattern text baseAndSlotsPattern .slots span.start with
      | some (groups, list) =>
        let base := (piece? text span.start groups .type).map (typeNameOf text groups)
        shape (nameOf text groups) base (some list) span
      | none =>
        match withPattern text basePattern .type span.start with
        | some (groups, base) => plainShape text span groups base
        | none => .error .noPattern

/-- Reads a sentence that covers `span` as a declaration. -/
def parse (sentence : List Char) (span : Span) : Except Failure Stmt :=
  (classify sentence span).mapError fun reason => ⟨String.ofList sentence, reason⟩

end Prose.LooseDeclaration
