import Prose.Proofs.Document.Formed

/- Where expressions stand in a document. Every sort of expression has its places: what
   changes a variable is a statement of its own, conditions are what they can be, and no
   operand is a call or something that could not be read. The machine and the dialects
   rely on it. -/
namespace Prose

/-- Whether an expression gives a variable a value: an assignment or arithmetic in place. -/
def Expr.isAction : Expr → Bool
  | assignment .. | update true .. => true
  | _ => false

/-- A node of which all expressions directly below it are in their places. -/
structure Node.Placed (n : Node) : Prop where
  /-- What gives a variable a value stands directly below an expression statement. -/
  action : ∀ e, .expr e ∈ n.children → e.isAction → ∃ span, n = .stmt (.expression e span)
  /-- Arithmetic with a target is always in place. -/
  update : ∀ inPlace op operand target span,
    n = .expr (.update inPlace op operand target span) → inPlace = true
  /-- A condition is a comparison that could be read, a call with names that nothing owns, or
      something that could not be read. -/
  condition : ∀ test branch span, n = .stmt (.conditional test branch span) → test.Condition
  /-- No operand is a call or could not be read, and only an action compares its operand. -/
  operand : ∀ e e', n = .expr e → .expr e' ∈ e.children →
    (∀ marker parameters span, e' ≠ .invocation marker parameters span) ∧
      (∀ code span, e' ≠ .invalid code span) ∧ (e'.isComparison → e.isAction)
  /-- A length in inches holds a whole number. -/
  inches : ∀ value span, n = .expr (.inches value span) → ∃ k s, value = .int k s
  /-- The owner of a slot is a literal. -/
  owner : ∀ slot owner span, n = .expr (.possessive slot owner span) → owner.Literal
  /-- A constant is a literal. -/
  constant : ∀ name value span, n = .stmt (.constantDeclaration name value span) → value.Literal
  /-- A unit is worth a whole number of other units. -/
  unit : ∀ name value base span,
    n = .stmt (.unitAlias name value base span) → ∃ k s, value = .int k s

namespace Expr

variable {e : Expr}

theorem Operand.isComparison (h : e.Operand) : e.isComparison = false := by
  cases h with
  | literal h => cases h <;> rfl
  | slot | reference | math => rfl

/-- A value changes nothing, is not a call and could be read. -/
theorem Value.passive (h : e.Value) : e.isAction = false ∧
    (∀ marker parameters span, e ≠ .invocation marker parameters span) ∧
      ∀ code span, e ≠ .invalid code span := by
  cases h with
  | operand h =>
    cases h with
    | literal h => cases h <;> exact ⟨rfl, nofun, nofun⟩
    | slot | reference | math => exact ⟨rfl, nofun, nofun⟩
  | test h =>
    cases h with
    | comparison => exact ⟨rfl, nofun, nofun⟩

theorem Condition.isAction (h : e.Condition) : e.isAction = false := by
  cases h with
  | test h =>
    cases h with
    | comparison => rfl
  | call | unread => rfl

theorem Action.isAction (h : e.Action true) : e.isAction = true := by
  cases h with
  | assignment | update => rfl

end Expr

namespace Node

variable {n : Node} {e e' : Expr}

/-- The place of what gives a variable a value. -/
theorem Formed.stmt_of_isAction (h : n.Formed) (he : .expr e ∈ n.children)
    (haction : e.isAction = true) : ∃ span, n = .stmt (.expression e span) := by
  have hpassive (hvalue : e.Value) : False := by
    rw [hvalue.passive.1] at haction
    cases haction
  cases n with
  | stmt s =>
    cases h with
    | expression h =>
      obtain rfl := Node.expr.inj (List.mem_singleton.1 he)
      exact ⟨_, rfl⟩
    | block | paragraph | variableDeclaration | shapeDeclaration | pointerDeclaration | labeled
    | invocation | invalid => simp [children, Stmt.children] at he
    | constantDeclaration h =>
      obtain rfl : e = _ := by simpa [children, Stmt.children] using he
      exact (hpassive h.isValue).elim
    | unitAlias =>
      obtain rfl : e = _ := by simpa [children, Stmt.children] using he
      cases haction
    | conditional hcondition =>
      obtain rfl : e = _ := by simpa [children, Stmt.children] using he
      rw [hcondition.isAction] at haction
      cases haction
    | result h =>
      obtain rfl : e = _ := by simpa [children, Stmt.children] using he
      exact (hpassive h).elim
  | expr e' =>
    rcases Expr.parts_of_formed h with hparts | ⟨-, hparts⟩
    · exact (hpassive (.operand (hparts _ he))).elim
    · exact (hpassive (hparts _ he)).elim
  | variableDeclaration d =>
    have hvalue : e ∈ d.initializer := by simpa [children] using he
    exact (hpassive (h e hvalue)).elim
  | document | paragraph | shape | slot | reference | typeName | label =>
    simp [children, Paragraph.children] at he

theorem Formed.placed (h : n.Formed) : n.Placed where
  action e he haction := h.stmt_of_isAction he haction
  update := by
    rintro inPlace op operand target span rfl
    rcases h with h | h | h
    · cases h with
      | operand h => cases h with | literal h => cases h
      | test h => cases h
    · cases h with | update => rfl
    · cases h with | test h => cases h
  condition := by
    rintro test branch span rfl
    cases h with
    | conditional hcondition => exact hcondition
  operand := by
    rintro e e' rfl he
    rcases Expr.parts_of_formed h with hparts | ⟨haction, hparts⟩
    · have hoperand : e'.Operand := hparts _ he
      obtain ⟨-, hcall, hread⟩ := Expr.Value.passive (.operand hoperand)
      refine ⟨hcall, hread, fun hcomparison => ?_⟩
      rw [hoperand.isComparison] at hcomparison
      cases hcomparison
    · obtain ⟨-, hcall, hread⟩ := Expr.Value.passive (hparts _ he)
      exact ⟨hcall, hread, fun _ => haction.isAction⟩
  inches := by
    rintro value span rfl
    rcases h with h | h | h
    · cases h with
      | operand h => cases h with | literal h => cases h with | inches => exact ⟨_, _, rfl⟩
      | test h => cases h
    · cases h
    · cases h with | test h => cases h
  owner := by
    rintro slot owner span rfl
    rcases h with h | h | h
    · cases h with
      | operand h =>
        cases h with
        | literal h => cases h
        | slot howner => exact howner
      | test h => cases h
    · cases h
    · cases h with | test h => cases h
  constant := by
    rintro name value span rfl
    cases h with
    | constantDeclaration h => exact h
  unit := by
    rintro name value base span rfl
    cases h with
    | unitAlias => exact ⟨_, _, rfl⟩

end Node

/-- Every node of every document, whatever the text and the settings and however strictly it
    is read, has the expressions directly below it in their places. -/
theorem expressions_placed (settings : ReadingSettings) (text : String) (strict : Bool) :
    ∀ n ∈ (Node.document (Document.parse settings text strict)).preorder, n.Placed := by
  intro n hn
  have hformed : (Node.document (Document.parse settings text strict)).Formed :=
    Document.formed_parse settings text strict
  exact (hformed.of_mem_preorder hn).placed

set_option maxRecDepth 4096 in
/-- The only statement of a document, an assignment. -/
theorem expressions_placed_assignment :
    let value : Expr := .assignment (.plain "x" ⟨11, 14⟩) (.int 5 ⟨4, 5⟩) ⟨0, 14⟩
    let n : Node := .stmt (.expression value ⟨0, 14⟩)
    n ∈ (Node.document (Document.parse {} "put 5 into a x.")).preorder ∧ n.Placed := by
  intro value n
  let p : Paragraph := ⟨[.expression value ⟨0, 14⟩], none, ⟨0, 15⟩⟩
  have hparse : Document.parse {} "put 5 into a x." = ⟨[p], ⟨0, 15⟩⟩ := by cbv
  have hmem : n ∈ (Node.paragraph p).preorder :=
    Node.mem_preorder_of_mem_children (List.mem_singleton_self n)
  have hn : n ∈ (Node.document (Document.parse {} "put 5 into a x.")).preorder := by
    rw [hparse]
    exact Node.preorder_subset (List.mem_singleton_self (Node.paragraph p)) hmem
  exact ⟨hn, expressions_placed {} "put 5 into a x." false n hn⟩

end Prose
