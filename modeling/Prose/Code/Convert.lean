import Prose.Code.CSharp
import Prose.Code.JavaScript

/- Conversion of trees to code. A statement becomes a list of lines; what is nested
   is the same lines, one level further in. The first part that a dialect cannot
   say, in the order of the tree, is the failure of the whole. -/
namespace Prose

/-- Something that a target language has no way to say. -/
structure Unsupported where
  kind : String
  target : Target
  deriving DecidableEq

/-- The message of a failed conversion. -/
def Unsupported.message (u : Unsupported) : String :=
  u.kind ++ " is not supported by the " ++ u.target.title ++ " converter"

/-- The dialect of a target. -/
def Target.dialect : Target → Dialect
  | csharp => Code.CSharp.dialect
  | javascript => Code.JavaScript.dialect

namespace Dialect

variable (d : Dialect)

/-- The result of a conversion. -/
abbrev Converted (α : Type) := Except Unsupported α

/-- The failure at something of a kind. -/
def refuse {α : Type} (kind : String) : Converted α := .error ⟨kind, d.target⟩

/-- A reference: the names from the outermost owner on, with dots between them. -/
def reference (r : Reference) : String := ".".intercalate (r.path.map d.identifier)

mutual

/-- An expression. Operands are written in the order in which they are read. -/
def expr : Expr → Converted String
  | .int value _ => .ok (toString value)
  | .text value _ => .ok ("\"" ++ value ++ "\"")
  | .bytes value _ => .ok (d.bytes (value.map fun b => toString b.toNat))
  | .inches value _ => expr value
  | .ratio numerator denominator _ => .ok (toString numerator ++ " / " ++ toString denominator)
  | .null _ => .ok "null"
  | .reference name _ => .ok (d.reference name)
  | .possessive slot owner _ => do
    let owner ← expr owner
    return owner ++ "." ++ d.reference slot
  | .assignment target value _ => do
    let value ← expr value
    return d.reference target ++ " = " ++ value
  | .update _ op operand target _ => do
    let operand ← expr operand
    return d.reference target ++ " " ++ Code.mathSign op ++ "= " ++ operand
  | .math op first second _ => do
    let first ← expr first
    let second ← expr second
    return first ++ " " ++ Code.mathSign op ++ " " ++ second
  | .comparison op first second s =>
    match Code.comparisonSign op with
    | none => d.refuse (Expr.comparison op first second s).kindName
    | some sign => do
      let first ← expr first
      let second ← expr second
      return first ++ " " ++ sign ++ " " ++ second
  | .invocation marker parameters _ => do
    let parameters ← exprs parameters
    return Code.mangle marker ++ "(" ++ ", ".intercalate parameters ++ ")"
  | .invalid code s =>
    match d.unreadCondition with
    | none => d.refuse (Expr.invalid code s).kindName
    | some keep => .ok (keep code)

/-- Some expressions. -/
def exprs : List Expr → Converted (List String)
  | [] => .ok []
  | e :: es => do
    let e ← expr e
    let es ← exprs es
    return e :: es

end

/-- A variable declaration without its terminator. -/
def variableDeclaration (v : VariableDeclaration) : Converted String :=
  match v.initializer with
  | none => .ok (d.declared v)
  | some e => do
    let e ← d.expr e
    return d.declared v ++ " = " ++ e

/-- A shape declaration. -/
def shape (s : Shape) : List String :=
  d.shapeHeader s ++ ((s.slots.getD []).map fun slot => Code.indent (d.slot slot)) ++ ["\x7d"]

/-- A constant whose value is followed by something. -/
def constant (name : Reference) (value : Expr) (tail : String) : Converted (List String) :=
  match d.constantType value with
  | none => d.refuse value.kindName
  | some type => do
    let value ← d.expr value
    return d.constantLines type (d.reference name) (value ++ tail)

/-- The lines of a procedure around those of its body. -/
def procedure (l : Label) (body : List String) : List String :=
  d.procedureHeader (Code.mangle l.marker) (l.parameters.map fun r => d.identifier r.name) ++
    body.map Code.indent ++ ["\x7d"]

/-- The lines of a paragraph with a label or without. -/
def labelled (label : Option Label) (body : List String) : List String :=
  match label with
  | none => body
  | some l => d.procedure l body

/-- The call of a procedure. -/
def call (marker : String) (parameters : List Reference) (result : Option Reference) : String :=
  let call := Code.mangle marker ++ "(" ++ ", ".intercalate (parameters.map d.reference) ++ ");"
  match result with
  | none => call
  | some r => d.reference r ++ " = " ++ call

mutual

/-- The lines of a statement. -/
def stmt : Stmt → Converted (List String)
  | .block body _ => stmts body
  | .paragraph statements label _ => do
    let body ← stmts statements
    return d.labelled label body
  | .variableDeclaration declaration _ => do
    let code ← d.variableDeclaration declaration
    return [code ++ ";"]
  | .shapeDeclaration declaration _ => .ok (d.shape declaration)
  | .constantDeclaration name value _ => d.constant name value ""
  | .unitAlias name value base _ => d.constant name value (" * " ++ d.reference base)
  | .pointerDeclaration pointer base _ => .ok (d.pointer (d.reference pointer) base)
  | .expression value _ => do
    let code ← d.expr value
    return [code ++ ";"]
  | .conditional condition branch _ => do
    let condition ← d.expr condition
    let body ← stmt branch
    return ("if (" ++ condition ++ ") \x7b") :: body.map Code.indent ++ ["\x7d"]
  | .result value _ => do
    let code ← d.expr value
    return ["return " ++ code ++ ";"]
  | .invocation marker parameters result _ => .ok [d.call marker parameters result]
  | .labeled label body _ => do
    let body ← stmt body
    return d.procedure label body
  | .invalid tokens s =>
    match d.unreadStatement with
    | none => d.refuse (Stmt.invalid tokens s).kindName
    | some keep => .ok [keep (Token.joinTexts tokens)]

/-- The lines of some statements. -/
def stmts : List Stmt → Converted (List String)
  | [] => .ok []
  | s :: ss => do
    let lines ← stmt s
    let later ← stmts ss
    return lines ++ later

end

/-- The lines of a paragraph. -/
def paragraph (p : Paragraph) : Converted (List String) := do
  let body ← d.stmts p.statements
  return d.labelled p.label body

/-- The lines of a document. -/
def document (n : Document) : Converted (List String) := do
  let lines ← n.paragraphs.mapM d.paragraph
  return lines.flatten

/-- Lines as a text, each with its line break. -/
def ofLines (lines : List String) : String := String.join (lines.map (· ++ "\n"))

/-- The code of a node. A node that is not a whole statement has no line break at
    its end. -/
def node : Node → Converted String
  | .document n => ofLines <$> d.document n
  | .paragraph n => ofLines <$> d.paragraph n
  | .stmt n => ofLines <$> d.stmt n
  | .expr n => d.expr n
  | .variableDeclaration n => d.variableDeclaration n
  | .shape n => .ok ("\n".intercalate (d.shape n))
  | .reference n => .ok (d.reference n)
  | .typeName n =>
    match d.typeName with
    | none => d.refuse (Node.typeName n).kindName
    | some f => .ok (f n)
  | .slot n => d.refuse (Node.slot n).kindName
  | .label n => d.refuse (Node.label n).kindName

end Dialect

/-- The code of a node in a target language. -/
def Node.convert (t : Target) (n : Node) : Except Unsupported String := t.dialect.node n

end Prose
