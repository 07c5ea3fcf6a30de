import Prose.Tree.Basic

/- Trees without places. A tree is the same up to places as another one if both are the
   same after all their spans are forgotten. -/
namespace Prose

/-- The reference without its place, and its owners without theirs. -/
def Reference.unplaced (r : Reference) : Reference :=
  ⟨r.name, .zero, r.owners.map fun o => ⟨o.name, .zero⟩⟩

/-- The type name without its place. -/
def TypeName.unplaced (t : TypeName) : TypeName := { t with span := .zero }

/-- The slot without its place. -/
def Slot.unplaced (s : Slot) : Slot := { s with span := .zero }

/-- The shape without its place. -/
def Shape.unplaced (s : Shape) : Shape :=
  ⟨s.name, s.base.map TypeName.unplaced, s.slots.map fun slots => slots.map Slot.unplaced, .zero⟩

/-- The header without its place. -/
def Label.unplaced (l : Label) : Label :=
  ⟨l.markers, l.parameters.map Reference.unplaced, l.result.map Reference.unplaced, .zero⟩

mutual

/-- The expression without its places. -/
def Expr.unplaced : Expr → Expr
  | .int value _ => .int value .zero
  | .text value _ => .text value .zero
  | .bytes value _ => .bytes value .zero
  | .inches value _ => .inches value.unplaced .zero
  | .ratio numerator denominator _ => .ratio numerator denominator .zero
  | .null _ => .null .zero
  | .reference name _ => .reference name.unplaced .zero
  | .possessive slot owner _ => .possessive slot.unplaced owner.unplaced .zero
  | .assignment target value _ => .assignment target.unplaced value.unplaced .zero
  | .update inPlace op operand target _ =>
    .update inPlace op operand.unplaced target.unplaced .zero
  | .math op first second _ => .math op first.unplaced second.unplaced .zero
  | .comparison op first second _ => .comparison op first.unplaced second.unplaced .zero
  | .invocation marker parameters _ => .invocation marker (Expr.unplacedAll parameters) .zero
  | .invalid code _ => .invalid code .zero

/-- Some expressions without their places. -/
def Expr.unplacedAll : List Expr → List Expr
  | [] => []
  | e :: es => e.unplaced :: Expr.unplacedAll es

end

/-- The declaration without its places. -/
def VariableDeclaration.unplaced (d : VariableDeclaration) : VariableDeclaration :=
  ⟨d.name, d.type.unplaced, d.initializer.map Expr.unplaced, .zero⟩

mutual

/-- The statement without its places. Tokens that nothing could read are kept as they are. -/
def Stmt.unplaced : Stmt → Stmt
  | .block body _ => .block (Stmt.unplacedAll body) .zero
  | .paragraph statements label _ =>
    .paragraph (Stmt.unplacedAll statements) (label.map Label.unplaced) .zero
  | .variableDeclaration declaration _ => .variableDeclaration declaration.unplaced .zero
  | .shapeDeclaration declaration _ => .shapeDeclaration declaration.unplaced .zero
  | .constantDeclaration name value _ => .constantDeclaration name.unplaced value.unplaced .zero
  | .unitAlias name value base _ => .unitAlias name.unplaced value.unplaced base.unplaced .zero
  | .pointerDeclaration pointer base _ => .pointerDeclaration pointer.unplaced base.unplaced .zero
  | .expression value _ => .expression value.unplaced .zero
  | .conditional condition branch _ => .conditional condition.unplaced branch.unplaced .zero
  | .result value _ => .result value.unplaced .zero
  | .invocation marker parameters target _ =>
    .invocation marker (parameters.map Reference.unplaced) (target.map Reference.unplaced) .zero
  | .labeled label body _ => .labeled label.unplaced body.unplaced .zero
  | .invalid tokens _ => .invalid tokens .zero

/-- Some statements without their places. -/
def Stmt.unplacedAll : List Stmt → List Stmt
  | [] => []
  | s :: ss => s.unplaced :: Stmt.unplacedAll ss

end

end Prose
