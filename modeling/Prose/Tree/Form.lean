import Prose.Form.Basic
import Prose.Tree.Node

/- The forms of trees: the names of nodes and fields under which a tree is printed. -/
namespace Prose

/-- The form of a count or an offset. -/
def Form.natural (n : Nat) : Form := .number n

/-- The form of a token. -/
def Token.form (t : Token) : Form :=
  .record "Token" [("kind", .word t.kind.name), ("text", .text t.text),
    ("start", .natural t.start), ("end", .natural t.stop)]

/-- The form of a span. -/
def Span.form (s : Span) : Form :=
  .record "Range" [("start", .natural s.start), ("end", .natural s.stop)]

/-- The name of an operation on numbers. -/
def MathOp.name : MathOp → String
  | plus => "Plus"
  | minus => "Minus"
  | multiply => "Multiply"
  | divide => "Divide"

/-- The name of a comparison. -/
def Comparison.name : Comparison → String
  | equals => "Equals"
  | notEquals => "NotEquals"
  | less => "Less"
  | lessOrEquals => "LessOrEquals"
  | greater => "Greater"
  | greaterOrEquals => "GreaterOrEquals"
  | invalid => "Invalid"

/-- The form of a chain of owners: each owner holds the one above it. -/
def Owner.chainForm : List Owner → Form
  | [] => .absent
  | o :: above => .present (.record "IdentifierReference"
      [("name", .text o.name), ("owner", Owner.chainForm above), ("range", o.span.form)])

/-- The form of a reference. -/
def Reference.form (r : Reference) : Form :=
  .record "IdentifierReference"
    [("name", .text r.name), ("owner", Owner.chainForm r.owners), ("range", r.span.form)]

/-- The form of a type name. -/
def TypeName.form (t : TypeName) : Form :=
  .record "TypeIdentifierReference"
    [("name", .text t.name), ("is_collection", .flag t.collection), ("range", t.span.form)]

/-- The form of a slot. -/
def Slot.form (s : Slot) : Form :=
  .record "SlotDeclaration"
    [("name", .text s.name), ("alias_for", .optional (s.aliasFor.map .text)),
      ("is_collection", .flag s.collection), ("range", s.span.form)]

/-- The form of a shape declaration. -/
def Shape.form (s : Shape) : Form :=
  .record "ShapeDeclaration"
    [("name", .text s.name), ("base_shape", .optional (s.base.map TypeName.form)),
      ("slots", .optional (s.slots.map (.listOf Slot.form))), ("range", s.span.form)]

/-- The form of a label. -/
def Label.form (l : Label) : Form :=
  .record "InvokableLabel"
    [("markers", .listOf .text l.markers), ("parameters", .listOf Reference.form l.parameters),
      ("result", .optional (l.result.map Reference.form)), ("range", l.span.form)]

/-- The name of an arithmetic phrase and of the field that holds its operand. -/
def MathOp.updateNames (inPlace : Bool) : MathOp → String × String
  | plus => (if inPlace then "InPlaceAddition" else "Addition", "addend")
  | minus => (if inPlace then "InPlaceSubtract" else "Subtract", "subtrahend")
  | multiply => (if inPlace then "InPlaceMultiply" else "Multiply", "factor")
  | divide => (if inPlace then "InPlaceDivision" else "Division", "denominator")

mutual

/-- The form of an expression. -/
def Expr.form : Expr → Form
  | .int value s => .variant "IntLiteral" [("value", .number value), ("range", s.form)]
  | .text value s => .variant "StringLiteral" [("value", .text value), ("range", s.form)]
  | .bytes value s =>
    .variant "ByteArrayLiteral"
      [("value", .listOf (fun b => .natural b.toNat) value), ("range", s.form)]
  | .inches value s => .variant "InchLiteral" [("value", value.form), ("range", s.form)]
  | .ratio numerator denominator s =>
    .variant "RatioLiteral"
      [("numerator", .number numerator), ("denominator", .number denominator), ("range", s.form)]
  | .null s => .variant "NullLiteral" [("range", s.form)]
  | .reference name s => .variant "Variable" [("identifier", name.form), ("range", s.form)]
  | .possessive slot owner s =>
    .variant "Posessive" [("identifier", slot.form), ("owner", owner.form), ("range", s.form)]
  | .assignment target value s =>
    .variant "Assignment" [("variable", target.form), ("expression", value.form), ("range", s.form)]
  | .update inPlace op operand target s =>
    .variant (op.updateNames inPlace).1
      [((op.updateNames inPlace).2, operand.form), ("target", target.form), ("range", s.form)]
  | .math op first second s =>
    .variant "Math"
      [("operator", .word op.name), ("first", first.form), ("second", second.form),
        ("range", s.form)]
  | .comparison op first second s =>
    .variant "Logical"
      [("operator", .word op.name), ("first", first.form), ("second", second.form),
        ("range", s.form)]
  | .invocation marker parameters s =>
    .variant "Invocation"
      [("marker", .text marker), ("parameters", .list (Expr.forms parameters)), ("range", s.form)]
  | .invalid code s => .variant "Invalid" [("code", .text code), ("range", s.form)]

/-- The forms of some expressions. -/
def Expr.forms : List Expr → List Form
  | [] => []
  | e :: es => e.form :: Expr.forms es

end

/-- The form of a variable declaration. -/
def VariableDeclaration.form (d : VariableDeclaration) : Form :=
  .record "VariableDeclaration"
    [("name", .text d.name), ("type_reference", d.type.form),
      ("initializer", .optional (d.initializer.map Expr.form)), ("range", d.span.form)]

/-- The form of a paragraph whose statements already have theirs. -/
def Paragraph.formOf (statements : List Form) (label : Option Label) (s : Span) : Form :=
  .record "Paragraph"
    [("statements", .list statements), ("label", .optional (label.map Label.form)),
      ("range", s.form)]

mutual

/-- The form of a statement. -/
def Stmt.form : Stmt → Form
  | .block body s => .variant "Block" [("statements", .list (Stmt.forms body)), ("range", s.form)]
  | .paragraph statements label s =>
    .wrapped "Paragraph" (Paragraph.formOf (Stmt.forms statements) label s)
  | .variableDeclaration declaration s =>
    .variant "VariableDeclaration" [("declaration", declaration.form), ("range", s.form)]
  | .shapeDeclaration declaration s =>
    .variant "ShapeDeclaration" [("declaration", declaration.form), ("range", s.form)]
  | .constantDeclaration name value s =>
    .variant "ConstantDeclaration"
      [("identifier", name.form), ("value", value.form), ("range", s.form)]
  | .unitAlias name value base s =>
    .variant "UnitAliasDeclaration"
      [("identifier", name.form), ("value", value.form), ("base_unit", base.form),
        ("range", s.form)]
  | .pointerDeclaration pointer base s =>
    .variant "PointerDeclaration"
      [("pointer_type", pointer.form), ("base_type", base.form), ("range", s.form)]
  | .expression value s => .variant "Expression" [("expression", value.form), ("range", s.form)]
  | .conditional condition branch s =>
    .variant "If" [("condition", condition.form), ("then", branch.form), ("range", s.form)]
  | .result value s => .variant "Result" [("value", value.form), ("range", s.form)]
  | .invocation marker parameters target s =>
    .variant "Invocation"
      [("marker", .text marker), ("parameters", .listOf Reference.form parameters),
        ("result", .optional (target.map Reference.form)), ("range", s.form)]
  | .labeled label body s =>
    .variant "Labeled" [("label", label.form), ("statement", body.form), ("range", s.form)]
  | .invalid tokens s =>
    .variant "Invalid" [("tokens", .listOf Token.form tokens), ("range", s.form)]

/-- The forms of some statements. -/
def Stmt.forms : List Stmt → List Form
  | [] => []
  | s :: ss => s.form :: Stmt.forms ss

end

/-- The form of a paragraph. -/
def Paragraph.form (p : Paragraph) : Form := Paragraph.formOf (Stmt.forms p.statements) p.label p.span

/-- The form of a document. -/
def Document.form (d : Document) : Form :=
  .record "ParagraphList"
    [("paragraphs", .listOf Paragraph.form d.paragraphs), ("range", d.span.form)]

/-- The form of a node, under the name of its sort. -/
def Node.form : Node → Form
  | document n => .wrapped "ParagraphList" n.form
  | paragraph n => .wrapped "Paragraph" n.form
  | stmt n => .wrapped "Statement" n.form
  | expr n => .wrapped "Expression" n.form
  | variableDeclaration n => .wrapped "VariableDeclaration" n.form
  | shape n => .wrapped "ShapeDeclaration" n.form
  | slot n => .wrapped "SlotDeclaration" n.form
  | reference n => .wrapped "IdentifierReference" n.form
  | typeName n => .wrapped "TypeIdentifierReference" n.form
  | label n => .wrapped "InvokableLabel" n.form

end Prose
