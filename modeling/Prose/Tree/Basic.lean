import Prose.Span

/- The tree of a document: names, declarations, expressions, statements and
   paragraphs. Every node says which part of the document it was read from. -/
namespace Prose

/-- The four operations on numbers. -/
inductive MathOp where
  | plus | minus | multiply | divide
  deriving DecidableEq

/-- The comparisons. `invalid` stands for a comparison that could not be read. -/
inductive Comparison where
  | equals | notEquals | less | lessOrEquals | greater | greaterOrEquals | invalid
  deriving DecidableEq

/-- One owner in a chain of owners. -/
structure Owner where
  name : String
  span : Span
  deriving DecidableEq

/-- A use of a name. `owners` are its possessors in `a house's door's width` or
    `a width of a door of a house`, the nearest first. -/
structure Reference where
  name : String
  span : Span
  owners : List Owner
  deriving DecidableEq

namespace Reference

/-- A name that nothing owns. -/
def plain (name : String) (span : Span) : Reference := ⟨name, span, []⟩

/-- The reference itself seen as an owner of something else. -/
def toOwner (r : Reference) : Owner := ⟨r.name, r.span⟩

/-- The nearest owner, as a reference with the owners above it. -/
def owner? (r : Reference) : Option Reference :=
  match r.owners with
  | [] => none
  | o :: above => some ⟨o.name, o.span, above⟩

/-- Puts `owner` above all owners that are there. Everything below it now
    covers it too. -/
def withRootOwner (r owner : Reference) : Reference :=
  { name := r.name
    span := r.span.cover owner.span
    owners := (r.owners.map fun o => { o with span := o.span.cover owner.span }) ++
      owner.toOwner :: owner.owners }

/-- Names from the outermost owner down to this one. -/
def path (r : Reference) : List String := (r.owners.map Owner.name).reverse ++ [r.name]

end Reference

/-- A use of a type name; `collection` for `some numbers`. -/
structure TypeName where
  name : String
  collection : Bool
  span : Span
  deriving DecidableEq

/-- A slot of a shape. -/
structure Slot where
  name : String
  aliasFor : Option String
  collection : Bool
  span : Span
  deriving DecidableEq

/-- `a circle is a thing with a radius`. Without a slot list `slots` is absent. -/
structure Shape where
  name : String
  base : Option TypeName
  slots : Option (List Slot)
  span : Span
  deriving DecidableEq

/-- The header of a procedure. Further headers of one paragraph add markers. -/
structure Label where
  markers : List String
  parameters : List Reference
  result : Option Reference
  span : Span
  deriving DecidableEq

/-- The first marker names the procedure. -/
def Label.marker (l : Label) : String := l.markers.headD ""

/-- Expressions. -/
inductive Expr where
  /-- A whole number. -/
  | int (value : Int) (span : Span)
  /-- A quoted text. -/
  | text (value : String) (span : Span)
  /-- Bytes in hexadecimal. -/
  | bytes (value : List UInt8) (span : Span)
  /-- A length in inches. -/
  | inches (value : Expr) (span : Span)
  /-- A ratio of two numbers. -/
  | ratio (numerator denominator : Int) (span : Span)
  /-- No value. -/
  | null (span : Span)
  /-- The use of a name. -/
  | reference (name : Reference) (span : Span)
  /-- A slot of a literal, as in `"abc"'s length`. -/
  | possessive (slot : Reference) (owner : Expr) (span : Span)
  /-- `put 5 into a x`. -/
  | assignment (target : Reference) (value : Expr) (span : Span)
  /-- `add 5 to a x` and its kin. In place it is a statement, otherwise a phrase on its own. -/
  | update (inPlace : Bool) (op : MathOp) (operand : Expr) (target : Reference) (span : Span)
  /-- `a x plus 5`. -/
  | math (op : MathOp) (first second : Expr) (span : Span)
  /-- `a x is less than 5`. -/
  | comparison (op : Comparison) (first second : Expr) (span : Span)
  /-- The call of a procedure as a condition. -/
  | invocation (marker : String) (parameters : List Expr) (span : Span)
  /-- A condition that could not be read. -/
  | invalid (code : String) (span : Span)

/-- The part of the document that an expression was read from. -/
def Expr.span : Expr → Span
  | int _ s | text _ s | bytes _ s | inches _ s | ratio _ _ s | null s | reference _ s
  | possessive _ _ s | assignment _ _ s | update _ _ _ _ s | math _ _ _ s | comparison _ _ _ s
  | invocation _ _ s | invalid _ s => s

/-- `the width is a number equal to 5`. -/
structure VariableDeclaration where
  name : String
  type : TypeName
  initializer : Option Expr
  span : Span

/-- Statements. -/
inductive Stmt where
  /-- Some statements in a row. -/
  | block (body : List Stmt) (span : Span)
  /-- A paragraph in the place of a statement. -/
  | paragraph (statements : List Stmt) (label : Option Label) (span : Span)
  | variableDeclaration (declaration : VariableDeclaration) (span : Span)
  | shapeDeclaration (declaration : Shape) (span : Span)
  | constantDeclaration (name : Reference) (value : Expr) (span : Span)
  /-- `the foot is 12 inches`, in units that are not built in. -/
  | unitAlias (name : Reference) (value : Expr) (base : Reference) (span : Span)
  | pointerDeclaration (pointer : Reference) (base : TypeName) (span : Span)
  | expression (value : Expr) (span : Span)
  | conditional (condition : Expr) (branch : Stmt) (span : Span)
  | result (value : Expr) (span : Span)
  | invocation (marker : String) (parameters : List Reference) (result : Option Reference) (span : Span)
  /-- A procedure that starts inside a paragraph. -/
  | labeled (label : Label) (body : Stmt) (span : Span)
  /-- Tokens that nothing could read. -/
  | invalid (tokens : List Token) (span : Span)

namespace Stmt

/-- The part of the document that a statement was read from. -/
def span : Stmt → Span
  | block _ s | paragraph _ _ s | variableDeclaration _ s | shapeDeclaration _ s
  | constantDeclaration _ _ s | unitAlias _ _ _ s | pointerDeclaration _ _ s | expression _ s
  | conditional _ _ s | result _ s | invocation _ _ _ s | labeled _ _ s | invalid _ s => s

/-- The words of an invalid statement, with single spaces. -/
def invalidText? : Stmt → Option String
  | invalid tokens _ => some (Token.joinTexts tokens)
  | _ => none

/-- A statement below a header. -/
def underHeader (label : Label) (body : Stmt) : Stmt :=
  labeled label body (label.span.cover body.span)

/-- The body of a header that has none. -/
def noBody (label : Label) : Stmt := block [] label.span

/-- Keeps a run of tokens that nothing could read. -/
def ofUnread (tokens : List Token) : Stmt :=
  let kept := tokens.filter Token.isSignificant
  invalid kept (Span.ofTokens kept)

end Stmt

/-- A run of statements between blank lines, under one procedure header or none. -/
structure Paragraph where
  statements : List Stmt
  label : Option Label
  span : Span

/-- A whole document. -/
structure Document where
  paragraphs : List Paragraph
  span : Span

end Prose
