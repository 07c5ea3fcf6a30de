import Prose.Total
import Prose.Tree.Basic

/- One view of all nodes of a tree, for walking over it: what a node is called,
   what it covers and which nodes stand directly below it. The weight of a node
   counts the nodes of its subtree; children weigh less than their parent, which
   is why every walk ends. -/
namespace Prose

/-- A node of any sort. -/
inductive Node where
  | document (n : Document)
  | paragraph (n : Paragraph)
  | stmt (n : Stmt)
  | expr (n : Expr)
  | variableDeclaration (n : VariableDeclaration)
  | shape (n : Shape)
  | slot (n : Slot)
  | reference (n : Reference)
  | typeName (n : TypeName)
  | label (n : Label)

/-- What an expression is called in messages. -/
def Expr.kindName : Expr → String
  | int .. => "int literal"
  | text .. => "string literal"
  | bytes .. => "byte array literal"
  | inches .. => "inch literal"
  | ratio .. => "ratio literal"
  | null .. => "null literal"
  | reference .. => "variable expression"
  | possessive .. => "posessive expression"
  | assignment .. => "assignment expression"
  | update false .plus .. => "addition expression"
  | update false .minus .. => "subtract expression"
  | update false .multiply .. => "multiply expression"
  | update false .divide .. => "division expression"
  | update true .plus .. => "in-place addition expression"
  | update true .minus .. => "in-place subtract expression"
  | update true .multiply .. => "in-place multiply expression"
  | update true .divide .. => "in-place division expression"
  | math .. => "math expression"
  | comparison .. => "logical expression"
  | invocation .. => "invocation expression"
  | invalid .. => "invalid expression"

/-- The comparison that an expression makes. One that could not be read counts
    as an invalid comparison. -/
def Expr.comparison? : Expr → Option Comparison
  | comparison op _ _ _ => some op
  | invalid _ _ => some .invalid
  | _ => none

/-- What a statement is called in messages. -/
def Stmt.kindName : Stmt → String
  | block .. => "block statement"
  | paragraph .. => "paragraph"
  | variableDeclaration .. => "variable declaration statement"
  | shapeDeclaration .. => "shape declaration statement"
  | constantDeclaration .. => "constant declaration statement"
  | unitAlias .. => "unit alias declaration statement"
  | pointerDeclaration .. => "pointer declaration statement"
  | expression .. => "expression statement"
  | conditional .. => "if statement"
  | result .. => "result statement"
  | invocation .. => "invocation statement"
  | labeled .. => "labeled statement"
  | invalid .. => "invalid statement"

namespace Node

/-- What a node is called in messages. -/
def kindName : Node → String
  | document _ => "paragraph list"
  | paragraph _ => "paragraph"
  | stmt n => n.kindName
  | expr n => n.kindName
  | variableDeclaration _ => "variable declaration"
  | shape _ => "shape declaration"
  | slot _ => "slot declaration"
  | reference _ => "identifier reference"
  | typeName _ => "type identifier reference"
  | label _ => "invokable label"

/-- The part of the document that a node was read from. -/
def span : Node → Span
  | document n => n.span
  | paragraph n => n.span
  | stmt n => n.span
  | expr n => n.span
  | variableDeclaration n => n.span
  | shape n => n.span
  | slot n => n.span
  | reference n => n.span
  | typeName n => n.span
  | label n => n.span

end Node

/-- The nodes directly below an expression, in the order of the text. -/
def Expr.children : Expr → List Node
  | inches value _ => [.expr value]
  | reference name _ => [.reference name]
  | possessive slot owner _ => [.expr owner, .reference slot]
  | assignment target value _ => [.reference target, .expr value]
  | update _ _ operand target _ => [.reference target, .expr operand]
  | math _ first second _ => [.expr first, .expr second]
  | comparison _ first second _ => [.expr first, .expr second]
  | invocation _ parameters _ => parameters.map .expr
  | _ => []

/-- The nodes directly below a paragraph. -/
def Paragraph.children (p : Paragraph) : List Node :=
  p.label.toList.map .label ++ p.statements.map .stmt

/-- The nodes directly below a statement. -/
def Stmt.children : Stmt → List Node
  | block body _ => body.map .stmt
  | paragraph statements label _ => label.toList.map .label ++ statements.map .stmt
  | variableDeclaration declaration _ => [.variableDeclaration declaration]
  | shapeDeclaration declaration _ => [.shape declaration]
  | constantDeclaration name value _ => [.reference name, .expr value]
  | unitAlias name value base _ => [.reference name, .expr value, .reference base]
  | pointerDeclaration pointer base _ => [.reference pointer, .typeName base]
  | expression value _ => [.expr value]
  | conditional condition branch _ => [.expr condition, .stmt branch]
  | result value _ => [.expr value]
  | invocation _ parameters target _ =>
    parameters.map .reference ++ target.toList.map .reference
  | labeled label body _ => [.label label, .stmt body]
  | invalid _ _ => []

/-- The nodes directly below a node, in the order of the text. -/
def Node.children : Node → List Node
  | document n => n.paragraphs.map .paragraph
  | paragraph n => n.children
  | stmt n => n.children
  | expr n => n.children
  | variableDeclaration n => .typeName n.type :: n.initializer.toList.map .expr
  | shape n => n.base.toList.map .typeName ++ (n.slots.getD []).map .slot
  | reference n => n.owner?.toList.map .reference
  | label n => n.parameters.map .reference ++ n.result.toList.map .reference
  | slot _ => []
  | typeName _ => []

/-! ## Weights -/

/-- The number of nodes of a reference: itself and its owners. -/
def Reference.weight (r : Reference) : Nat := r.owners.length + 1

mutual

/-- The number of nodes of an expression. -/
def Expr.weight : Expr → Nat
  | .inches value _ => value.weight + 1
  | .reference name _ => name.weight + 1
  | .possessive slot owner _ => owner.weight + slot.weight + 1
  | .assignment target value _ => target.weight + value.weight + 1
  | .update _ _ operand target _ => target.weight + operand.weight + 1
  | .math _ first second _ => first.weight + second.weight + 1
  | .comparison _ first second _ => first.weight + second.weight + 1
  | .invocation _ parameters _ => Expr.weights parameters + 1
  | .int .. | .text .. | .bytes .. | .ratio .. | .null .. | .invalid .. => 1

/-- The number of nodes of some expressions together. -/
def Expr.weights : List Expr → Nat
  | [] => 0
  | e :: es => e.weight + Expr.weights es

end

/-- The number of nodes of a variable declaration. -/
def VariableDeclaration.weight (d : VariableDeclaration) : Nat :=
  total Expr.weight d.initializer.toList + 2

/-- The number of nodes of a shape declaration. -/
def Shape.weight (s : Shape) : Nat := s.base.toList.length + (s.slots.getD []).length + 1

/-- The number of nodes of a label. -/
def Label.weight (l : Label) : Nat :=
  total Reference.weight l.parameters + total Reference.weight l.result.toList + 1

mutual

/-- The number of nodes of a statement. -/
def Stmt.weight : Stmt → Nat
  | .block body _ => Stmt.weights body + 1
  | .paragraph statements label _ =>
    total Label.weight label.toList + Stmt.weights statements + 1
  | .variableDeclaration declaration _ => declaration.weight + 1
  | .shapeDeclaration declaration _ => declaration.weight + 1
  | .constantDeclaration name value _ => name.weight + value.weight + 1
  | .unitAlias name value base _ => name.weight + value.weight + base.weight + 1
  | .pointerDeclaration pointer _ _ => pointer.weight + 2
  | .expression value _ => value.weight + 1
  | .conditional condition branch _ => condition.weight + branch.weight + 1
  | .result value _ => value.weight + 1
  | .invocation _ parameters target _ =>
    total Reference.weight parameters + total Reference.weight target.toList + 1
  | .labeled label body _ => label.weight + body.weight + 1
  | .invalid .. => 1

/-- The number of nodes of some statements together. -/
def Stmt.weights : List Stmt → Nat
  | [] => 0
  | s :: ss => s.weight + Stmt.weights ss

end

/-- The number of nodes of a paragraph. -/
def Paragraph.weight (p : Paragraph) : Nat :=
  total Label.weight p.label.toList + Stmt.weights p.statements + 1

/-- The number of nodes of the subtree under a node, itself included. -/
def Node.weight : Node → Nat
  | document n => total Paragraph.weight n.paragraphs + 1
  | paragraph n => n.weight
  | stmt n => n.weight
  | expr n => n.weight
  | variableDeclaration n => n.weight
  | shape n => n.weight
  | slot _ => 1
  | reference n => n.weight
  | typeName _ => 1
  | label n => n.weight

theorem Expr.weights_eq_total (es : List Expr) : Expr.weights es = total Expr.weight es := by
  induction es with
  | nil => rfl
  | cons e es ih => rw [Expr.weights, total_cons, ih]

theorem Stmt.weights_eq_total (ss : List Stmt) : Stmt.weights ss = total Stmt.weight ss := by
  induction ss with
  | nil => rfl
  | cons s ss ih => rw [Stmt.weights, total_cons, ih]

/-- The weights of some nodes that all come from one constructor. -/
theorem Node.total_weight_map {α : Type} (f : α → Node) (g : α → Nat)
    (h : ∀ a, (f a).weight = g a) (l : List α) : total Node.weight (l.map f) = total g l := by
  rw [total_map, funext h]

theorem Node.total_weight_leaves {α : Type} (f : α → Node) (h : ∀ a, (f a).weight = 1)
    (l : List α) : total Node.weight (l.map f) = l.length := by
  induction l with
  | nil => rfl
  | cons a l ih => rw [List.map_cons, total_cons, List.length_cons, ih, h, Nat.add_comm]

/-- A node weighs one more than its children together. -/
theorem Node.weight_eq (n : Node) : n.weight = total Node.weight n.children + 1 := by
  have es := total_weight_map .expr Expr.weight fun _ => rfl
  have ss := total_weight_map .stmt Stmt.weight fun _ => rfl
  have ls := total_weight_map .label Label.weight fun _ => rfl
  have rs := total_weight_map .reference Reference.weight fun _ => rfl
  have ps := total_weight_map .paragraph Paragraph.weight fun _ => rfl
  have ts := total_weight_leaves .typeName fun _ => rfl
  have ds := total_weight_leaves .slot fun _ => rfl
  cases n with
  | document n => simp only [weight, children, ps]
  | paragraph n =>
    simp only [weight, children, Paragraph.weight, Paragraph.children, Stmt.weights_eq_total,
      total_append, ls, ss]
  | stmt n =>
    cases n <;>
      simp only [weight, children, Stmt.weight, Stmt.children, Stmt.weights_eq_total,
        total_append, ls, ss, rs, total_cons, total_nil] <;> omega
  | expr n =>
    cases n <;>
      simp only [weight, children, Expr.weight, Expr.children, Expr.weights_eq_total, es,
        total_cons, total_nil] <;> omega
  | variableDeclaration n =>
    simp only [weight, children, VariableDeclaration.weight, total_cons, es]
    omega
  | shape n => simp only [weight, children, Shape.weight, total_append, ts, ds]
  | slot n => rfl
  | reference n =>
    obtain ⟨name, span, owners⟩ := n
    cases owners with
    | nil => rfl
    | cons o owners =>
      simp only [weight, children, Reference.weight, Reference.owner?, Option.toList_some,
        List.map_cons, List.map_nil, total_cons, total_nil, List.length_cons]
  | typeName n => rfl
  | label n => simp only [weight, children, Label.weight, total_append, rs]

theorem Node.weight_pos (n : Node) : 0 < n.weight := by
  rw [n.weight_eq]
  exact Nat.succ_pos _

theorem Node.weight_lt_of_mem_children {n c : Node} (h : c ∈ n.children) : c.weight < n.weight := by
  rw [n.weight_eq]
  exact Nat.lt_succ_of_le (le_total_of_mem Node.weight h)

/-! ## Walks -/

/-- The subtree under a node in preorder, each node with its depth. -/
def Node.preorderFrom (depth : Nat) (n : Node) : List (Nat × Node) :=
  (depth, n) :: n.children.attach.flatMap fun c => Node.preorderFrom (depth + 1) c.1
termination_by n.weight
decreasing_by exact Node.weight_lt_of_mem_children c.2

/-- The subtree under a node in preorder. -/
def Node.preorder (n : Node) : List Node := (n.preorderFrom 0).map Prod.snd

/-- The invalid statements among the subtrees of `pending`, first subtree
    first. The children of a node are looked at before the nodes that wait. -/
def Node.invalidAmong : List Node → List Stmt
  | [] => []
  | n :: pending =>
    let later := Node.invalidAmong (n.children ++ pending)
    match n with
    | .stmt (.invalid tokens span) => .invalid tokens span :: later
    | _ => later
termination_by pending => total Node.weight pending
decreasing_by
  rw [total_append, total_cons, n.weight_eq]
  omega

/-- Every invalid statement of a document, in the order of the text. -/
def Document.invalidStatements (d : Document) : List Stmt := Node.invalidAmong [.document d]

end Prose
