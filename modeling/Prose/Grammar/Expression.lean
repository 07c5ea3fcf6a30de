import Prose.Grammar.Name
import Prose.Text.Integer

/- Expressions. Multiplication and division bind tighter than addition and
   subtraction, all of them to the left; a comparison stands between two such
   sums. An operator without an operand behind it is left for what follows. -/
namespace Prose.Grammar

open Rule

/-- Comparison phrases. The first one that matches as a whole is taken, so a
    phrase stands before its own beginnings. -/
def comparisons : List (List Kind × Comparison) :=
  [([.isWord, .notWord], .notEquals),
   ([.isWord, .equalWord, .toWord], .equals),
   ([.isWord, .lessWord, .thanWord], .less),
   ([.isWord, .smallerWord, .thanWord], .less),
   ([.isWord, .greaterWord, .thanWord], .greater),
   ([.isWord, .biggerWord, .thanWord], .greater),
   ([.isWord, .atWord, .mostWord], .lessOrEquals),
   ([.isWord, .atWord, .leastWord], .greaterOrEquals),
   ([.isWord], .equals),
   ([.equalWord], .equals),
   ([.smallerWord, .thanWord], .less),
   ([.lessWord, .thanWord], .less),
   ([.greaterWord, .thanWord], .greater),
   ([.biggerWord, .thanWord], .greater),
   ([.atWord, .mostWord], .lessOrEquals),
   ([.atWord, .leastWord], .greaterOrEquals)]

/-- Two numbers with a slash between them. -/
def readRatio (text : String) : Option (Int × Int) :=
  let numerator := text.toList.takeWhile (· != '/')
  match text.toList.dropWhile (· != '/') with
  | _ :: denominator =>
    match Text.readInteger (String.ofList numerator), Text.readInteger (String.ofList denominator) with
    | some n, some d => some (n, d)
    | _, _ => none
  | [] => none

/-- A text without the double quotes at its ends. -/
def unquote (text : String) : String :=
  let opened := text.toList.dropWhile (· == '"')
  String.ofList (opened.reverse.dropWhile (· == '"')).reverse

/-- Two operands joined by an operation. -/
def mathExpr (op : MathOp) (first second : Expr) : Expr :=
  .math op first second (first.span.cover second.span)

namespace Phrase

variable (p : Phrase)

/-- A literal. A number may be a length in inches. -/
def literal : Rule Expr := do
  let token := p.tokenAt (← position)
  let span := Span.ofToken token
  match token.kind with
  | .intLiteral =>
    match Text.readInteger token.text with
    | none => fail "number that fits in 64 bits"
    | some value => do
      let _ ← p.advance
      if ← p.at? .inchWord then
        let inch ← p.advance
        pure (.inches (.int value span) (span.cover (.ofToken inch)))
      else pure (.int value span)
  | .stringLiteral => do
    let _ ← p.advance
    pure (.text (unquote token.text) span)
  | .byteArrayLiteral =>
    match Text.readBytes (token.text.toList.drop 1) with
    | none => fail "byte array"
    | some value => do
      let _ ← p.advance
      pure (.bytes value span)
  | .ratioLiteral =>
    match readRatio token.text with
    | none => fail "ratio"
    | some (numerator, denominator) => do
      let _ ← p.advance
      pure (.ratio numerator denominator span)
  | .nullWord => do
    let _ ← p.advance
    pure (.null span)
  | _ => fail "literal"

/-- A literal, or a slot of one. -/
def literalOrSlot : Rule Expr := do
  let start ← position
  let owner ← p.literal
  let next ← position
  if p.kindAt next == .possessive && p.kindAt (next + 1) == .identifier then
    let _ ← p.advance
    let name ← p.longName
    pure (.possessive (.plain name.1 name.2) owner (← p.spanFrom start))
  else pure owner

/-- A single operand. -/
def primary : Rule Expr := do
  match ← outcome p.reference with
  | some r => pure (.reference r r.span)
  | none => p.literalOrSlot

/-- Operands joined to the left. `operator` finds the operation whose phrase starts
    at an index and the length of that phrase. -/
def joined (operator : Nat → Option (MathOp × Nat)) (operand : Rule Expr) :
    Nat → Expr → Rule Expr
  | 0, left => pure left
  | fuel + 1, left => do
    let before ← position
    match operator before with
    | none => pure left
    | some (op, length) => do
      moveTo (before + length)
      match ← outcome operand with
      | some right => joined operator operand fuel (mathExpr op left right)
      | none => do moveTo before; pure left

/-- The operation of `multiplied by` or `divided by` at an index. -/
def factorOperator (i : Nat) : Option (MathOp × Nat) :=
  match p.kindAt i, p.kindAt (i + 1) with
  | .multipliedWord, .byWord => some (.multiply, 2)
  | .dividedWord, .byWord => some (.divide, 2)
  | _, _ => none

/-- The operation of `plus` or `minus` at an index. -/
def termOperator (i : Nat) : Option (MathOp × Nat) :=
  match p.kindAt i with
  | .plusWord => some (.plus, 1)
  | .minusWord => some (.minus, 1)
  | _ => none

/-- Operands joined by multiplication and division. -/
def term : Rule Expr := do
  let first ← p.primary
  joined p.factorOperator p.primary p.size first

/-- Terms joined by addition and subtraction. -/
def arithmetic : Rule Expr := p.keptExpression .arithmetic do
  let first ← p.term
  joined p.termOperator p.term p.size first

/-- A comparison phrase. -/
def comparison : Rule Comparison := do
  let start ← position
  let found := comparisons.find? fun entry =>
    entry.1.zipIdx.all fun (kind, i) => p.kindAt (start + i) == kind
  match found with
  | some (words, op) => do moveTo (start + words.length); pure op
  | none => fail "comparison"

/-- Two sums with a comparison between them. -/
def compared : Rule Expr := do
  let first ← p.arithmetic
  let op ← p.comparison
  let second ← p.arithmetic
  pure (.comparison op first second (first.span.cover second.span))

/-- Any expression. -/
def expression : Rule Expr := p.keptExpression .expression (firstOf [p.compared, p.arithmetic])

/-- `add <expr> to <ref>`, `subtract <expr> from <ref>`, `multiply <ref> by <expr>`
    or `divide <ref> by <expr>`. -/
def arithmeticPhrase (inPlace : Bool) : Rule Expr := do
  let start ← position
  match p.kindAt start with
  | .addWord => do
    let _ ← p.advance
    let operand ← p.expression
    let _ ← p.eat .toWord
    let target ← p.reference
    pure (.update inPlace .plus operand target (← p.spanFrom start))
  | .subtractWord => do
    let _ ← p.advance
    let operand ← p.expression
    let _ ← p.eat .fromWord
    let target ← p.reference
    pure (.update inPlace .minus operand target (← p.spanFrom start))
  | .multiplyWord => do
    let _ ← p.advance
    let target ← p.reference
    let _ ← p.eat .byWord
    let operand ← p.expression
    pure (.update inPlace .multiply operand target (← p.spanFrom start))
  | .divideWord => do
    let _ ← p.advance
    let target ← p.reference
    let _ ← p.eat .byWord
    let operand ← p.expression
    pure (.update inPlace .divide operand target (← p.spanFrom start))
  | _ => fail "'add', 'subtract', 'multiply' or 'divide'"

/-- `put <expr> into|in <ref>` or `let <ref> is|equals [to] <expr>`. -/
def assignment : Rule Expr := do
  let start ← position
  if ← p.at? .putWord then
    let _ ← p.advance
    let value ← p.expression
    let _ ← p.eatAny [.intoWord, .inWord] "'into' or 'in'"
    let target ← p.reference
    pure (.assignment target value (← p.spanFrom start))
  else
    let _ ← p.eat .letWord
    let target ← p.reference
    let _ ← p.eatAny [.isWord, .equalWord] "'is' or 'equals'"
    p.skipAny [.toWord]
    let value ← p.expression
    pure (.assignment target value (← p.spanFrom start))

end Phrase

end Prose.Grammar
