import Prose.Grammar.Expression
import Prose.Text.Case

/- Declarations: variables, constants, units, pointers and shapes. -/
namespace Prose.Grammar

open Rule

/-- The word that makes a declaration one of a pointer, in either case. -/
def isPointerWord (t : Token) : Bool :=
  t.kind == .identifier && Text.sameAsciiLetters t.text "pointer"

/-- The unit that a plural unit word is made of. -/
def baseUnit (text : String) : String :=
  match text.toList.reverse with
  | 's' :: rest => String.ofList rest.reverse
  | _ => text

namespace Phrase

variable (p : Phrase)

/-- `equal(s) [to] <expr>` -/
def initializer : Rule Expr := do
  let _ ← p.eat .equalWord
  p.skipAny [.toWord]
  p.expression

/-- `the <name> is|are <type> [equal(s) [to] <expr>]` -/
def variableDeclaration : Rule VariableDeclaration := do
  let start ← position
  let _ ← p.eat .definiteArticle
  let name ← p.longName
  let _ ← p.eatAny [.isWord, .areWord] "'is' or 'are'"
  let type ← p.typeName
  let value ← outcome (attempt p.initializer)
  pure ⟨name.1, type, value, ← p.spanFrom start⟩

/-- A variable declaration as a statement. -/
def variableStatement : Rule Stmt := do
  let declaration ← p.variableDeclaration
  pure (.variableDeclaration declaration declaration.span)

/-- `the <name> is <int> <units>`. The base unit is the singular of the unit word. -/
def unitAlias : Rule Stmt := do
  let start ← position
  let _ ← p.eat .definiteArticle
  let name ← p.longName
  let _ ← p.eat .isWord
  let amount ← p.eat .intLiteral
  match Text.readInteger amount.text with
  | none => fail "number that fits in 64 bits"
  | some value => do
    let unit ← p.eat .identifier
    pure (.unitAlias (.plain name.1 name.2) (.int value (.ofToken amount))
      (.plain (baseUnit unit.text) (.ofToken unit)) (← p.spanFrom start))

/-- `the <name> is <literal>` -/
def constantDeclaration : Rule Stmt := do
  let start ← position
  let _ ← p.eat .definiteArticle
  let name ← p.longName
  let _ ← p.eat .isWord
  let value ← p.literal
  pure (.constantDeclaration (.plain name.1 name.2) value (← p.spanFrom start))

/-- `a <name> is a pointer to <type>` -/
def pointerDeclaration : Rule Stmt := do
  let start ← position
  let _ ← p.eat .indefiniteArticle
  let name ← p.longName
  let pointer : Reference := .plain name.1 (← p.spanFrom start)
  let _ ← p.eat .isWord
  let _ ← p.eat .indefiniteArticle
  if isPointerWord (p.tokenAt (← position)) then
    let _ ← p.advance
    let _ ← p.eat .toWord
    let base ← p.typeName
    pure (.pointerDeclaration pointer base (← p.spanFrom start))
  else fail "'pointer'"

/-- `is [a|an|the] <name>` or `at the <name>`, the slot that another one stands for. -/
def slotAlias : Rule String := do
  match ← p.here with
  | .isWord => do
    let _ ← p.advance
    p.skipAny articles
    let name ← p.longName
    pure name.1
  | .atWord => do
    let _ ← p.advance
    let _ ← p.eat .definiteArticle
    let name ← p.longName
    pure name.1
  | _ => fail "'is' or 'at'"

/-- `a|an|some <name>` with the slot it stands for, if any. -/
def slot : Rule Slot := do
  let start ← position
  let article ← p.eatAny [.indefiniteArticle, .someWord] "'a', 'an' or 'some'"
  let name ← p.longName
  let aliasFor ← outcome (attempt p.slotAlias)
  pure ⟨name.1, aliasFor, article.kind == .someWord, ← p.spanFrom start⟩

/-- Further slots, each behind a comma, an `and` or both. -/
def moreSlots : Nat → Rule (List Slot)
  | 0 => pure []
  | fuel + 1 => do
    let before ← position
    p.skipAny [.comma]
    p.skipAny [.andWord]
    if (← position) = before then pure []
    else match ← outcome p.slot with
      | some next => do
        let later ← moreSlots fuel
        pure (next :: later)
      | none => do moveTo before; pure []

/-- One or more slots. -/
def slotList : Rule (List Slot) := do
  let first ← p.slot
  let later ← p.moreSlots p.size
  pure (first :: later)

/-- `a <name> is <base> [with <slots>]` -/
def shapeDeclaration : Rule Stmt := do
  let start ← position
  let _ ← p.eat .indefiniteArticle
  let name ← p.longName
  let _ ← p.eat .isWord
  let base ← p.typeName
  if ← p.at? .withWord then
    let _ ← p.advance
    let slots ← p.slotList
    let span ← p.spanFrom start
    pure (.shapeDeclaration ⟨name.1, some base, some slots, span⟩ span)
  else
    let span ← p.spanFrom start
    pure (.shapeDeclaration ⟨name.1, some base, none, span⟩ span)

/-- `a <name> has <slots>` -/
def shapeOfSlots : Rule Stmt := do
  let start ← position
  let _ ← p.eat .indefiniteArticle
  let name ← p.longName
  let _ ← p.eat .hasWord
  let slots ← p.slotList
  let span ← p.spanFrom start
  pure (.shapeDeclaration ⟨name.1, none, some slots, span⟩ span)

end Phrase

end Prose.Grammar
