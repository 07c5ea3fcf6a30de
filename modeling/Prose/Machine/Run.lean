import Prose.Document.Read
import Prose.Machine.Memory

/- Running documents: declarations, assignments, arithmetic and conditions. A run
   stops at the first statement that fails; what was done before it stays done. -/
namespace Prose.Machine

/-- A run that changes memory and may stop. The memory is there in either case. -/
abbrev Run := ExceptT RunError (StateM Memory)

namespace Run

/-- A result that needs no memory. -/
def lift {α : Type} (x : Except RunError α) : Run α :=
  match x with
  | .ok a => pure a
  | .error e => throw e

/-- Declares a variable. -/
def declare (name shape : String) (value : Value) : Run Unit := do
  set (← lift ((← get).declare name shape value))

end Run

open Run

/-- The name of a reference. What has an owner is a slot. -/
def localName (r : Reference) : Except RunError String :=
  if r.owners.isEmpty then .ok r.name else .error (.unsupported .slotAccess)

/-- The value of a reference. -/
def readReference (r : Reference) : Run Value := do
  let name ← lift (localName r)
  lift ((← get).value name)

/-- Gives a reference a value. -/
def writeReference (r : Reference) (value : Value) : Run Value := do
  let name ← lift (localName r)
  set (← lift ((← get).assign name value))
  return value

/-- The value of an expression. Operands are evaluated from left to right; the
    target of an arithmetic phrase is read before its operand. -/
def evaluate : Expr → Run Value
  | .null _ => return .null
  | .int value _ => return .int value
  | .text value _ => return .text value
  | .bytes value _ => return .bytes value
  | .inches value _ => evaluate value
  | .ratio .. => throw (.unsupported .ratio)
  | .reference name _ => readReference name
  | .possessive .. => throw (.unsupported .slotAccess)
  | .assignment target value _ => do
    let value ← evaluate value
    writeReference target value
  | .update _ op operand target _ => do
    let current ← readReference target
    let operand ← evaluate operand
    let value ← lift (math op current operand)
    writeReference target value
  | .math op first second _ => do
    let first ← evaluate first
    let second ← evaluate second
    lift (math op first second)
  | .comparison op first second _ => do
    let first ← evaluate first
    let second ← evaluate second
    lift (compareValues op first second)
  | .invocation .. => throw (.unsupported .invocationExpression)
  | .invalid code _ => throw (.invalid "expression" code)

/-- Declares a variable with its initial value. -/
def declareVariable (d : VariableDeclaration) : Run Unit := do
  let value ← match d.initializer with
    | some e => evaluate e
    | none => pure .null
  declare d.name d.type.name value

/-- Declares a constant. -/
def declareConstant (name : Reference) (value : Expr) : Run Unit := do
  let name ← lift (localName name)
  let value ← evaluate value
  declare name value.typeName value

mutual

/-- Runs a statement. -/
def runStmt : Stmt → Run Unit
  | .block body _ => runStmts body
  | .paragraph statements label _ =>
    if label.isSome then throw (.unsupported .paragraphLabel) else runStmts statements
  | .variableDeclaration declaration _ => declareVariable declaration
  | .constantDeclaration name value _ => declareConstant name value
  | .expression value _ => do
    let _ ← evaluate value
  | .conditional condition branch _ => do
    match ← evaluate condition with
    | .bool true => runStmt branch
    | .bool false => return
    | other => throw (.notCondition other.typeName)
  | .shapeDeclaration .. => throw (.unsupported .shapeDeclaration)
  | .unitAlias .. => throw (.unsupported .unitAlias)
  | .pointerDeclaration .. => throw (.unsupported .pointerDeclaration)
  | .result .. => throw (.unsupported .result)
  | .invocation .. => throw (.unsupported .invocationStatement)
  | .labeled .. => throw (.unsupported .labeledStatement)
  | .invalid tokens _ => throw (.invalid "statement" (Token.joinTexts tokens))

/-- Runs some statements in a row. -/
def runStmts : List Stmt → Run Unit
  | [] => return
  | s :: ss => do
    runStmt s
    runStmts ss

end

/-- Runs a paragraph. The machine has no procedures. -/
def runParagraph (p : Paragraph) : Run Unit :=
  if p.label.isSome then throw (.unsupported .paragraphLabel) else runStmts p.statements

/-- Runs a document. -/
def runDocument (d : Document) : Run Unit := d.paragraphs.forM runParagraph

/-- Runs a document in a memory: what came of it, and the memory afterwards. -/
def execute (d : Document) (m : Memory) : Except RunError Unit × Memory := (runDocument d).run m

/-- Reads a text as a document with the usual settings and runs it. -/
def executeText (text : String) (m : Memory) : Except RunError Unit × Memory :=
  execute (Document.parse {} text) m

end Prose.Machine
