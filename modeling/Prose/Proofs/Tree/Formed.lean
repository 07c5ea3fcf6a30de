import Prose.Proofs.Tree.Preorder

/- Formed trees. The constructors of a tree can be put together in more ways than reading
   ever does. What is read keeps five classes of expressions apart: literals, operands,
   values, actions and conditions; and a statement has expressions of one class in each of
   its places. -/
namespace Prose

namespace Expr

/-- A literal. A length holds a whole number. -/
inductive Literal : Expr → Prop where
  | int {n span} : Literal (.int n span)
  | text {value span} : Literal (.text value span)
  | bytes {value span} : Literal (.bytes value span)
  | inches {n inner span} : Literal (.inches (.int n inner) span)
  | ratio {numerator denominator span} : Literal (.ratio numerator denominator span)
  | null {span} : Literal (.null span)

/-- An operand: a literal, a slot of one, the use of a name, or operands joined by an
    operation. -/
inductive Operand : Expr → Prop where
  | literal {e} (h : Literal e) : Operand e
  | slot {slot owner span} (howner : Literal owner) : Operand (.possessive slot owner span)
  | reference {name span} : Operand (.reference name span)
  | math {op first second span} (hfirst : Operand first) (hsecond : Operand second) :
      Operand (.math op first second span)

/-- A comparison of two operands, one that could be read. -/
inductive Test : Expr → Prop where
  | comparison {op first second span} (hop : op ≠ .invalid) (hfirst : Operand first)
      (hsecond : Operand second) : Test (.comparison op first second span)

/-- A value: an operand or a comparison. -/
inductive Value : Expr → Prop where
  | operand {e} (h : Operand e) : Value e
  | test {e} (h : Test e) : Value e

/-- An action: the assignment of a value, or arithmetic with one, in place or not. -/
inductive Action (inPlace : Bool) : Expr → Prop where
  | assignment {target value span} (hvalue : Value value) :
      Action inPlace (.assignment target value span)
  | update {op value target span} (hvalue : Value value) :
      Action inPlace (.update inPlace op value target span)

/-- A condition: a comparison, the call of a procedure with names that nothing owns, or
    what could not be read. -/
inductive Condition : Expr → Prop where
  | test {e} (h : Test e) : Condition e
  | call {marker parameters span}
      (h : ∀ e ∈ parameters, ∃ r s, e = .reference r s ∧ r.owners = []) :
      Condition (.invocation marker parameters span)
  | unread {code span} : Condition (.invalid code span)

end Expr

/-- A statement that has expressions of the right class in all of its places. -/
inductive Stmt.Formed : Stmt → Prop where
  | block {body span} (h : ∀ s ∈ body, Formed s) : Formed (.block body span)
  | paragraph {statements label span} (h : ∀ s ∈ statements, Formed s) :
      Formed (.paragraph statements label span)
  | variableDeclaration {declaration span} (h : ∀ e ∈ declaration.initializer, e.Value) :
      Formed (.variableDeclaration declaration span)
  | shapeDeclaration {declaration span} : Formed (.shapeDeclaration declaration span)
  | constantDeclaration {name value span} (h : value.Literal) :
      Formed (.constantDeclaration name value span)
  | unitAlias {name n inner base span} : Formed (.unitAlias name (.int n inner) base span)
  | pointerDeclaration {pointer base span} : Formed (.pointerDeclaration pointer base span)
  | expression {value span} (h : value.Action true) : Formed (.expression value span)
  | conditional {condition branch span} (hcondition : condition.Condition)
      (hbranch : Formed branch) : Formed (.conditional condition branch span)
  | result {value span} (h : value.Value) : Formed (.result value span)
  | invocation {marker parameters target span} :
      Formed (.invocation marker parameters target span)
  | labeled {label body span} (h : Formed body) : Formed (.labeled label body span)
  | invalid {tokens span} : Formed (.invalid tokens span)

namespace Stmt

variable {s : Stmt} {label : Label}

theorem Formed.underHeader (h : s.Formed) : (Stmt.underHeader label s).Formed := .labeled h

theorem formed_noBody (label : Label) : (Stmt.noBody label).Formed := .block nofun

theorem formed_ofUnread (ts : List Token) : (Stmt.ofUnread ts).Formed := .invalid

end Stmt

/-- A document that has only formed statements. -/
def Document.Formed (d : Document) : Prop := ∀ p ∈ d.paragraphs, ∀ s ∈ p.statements, s.Formed

/-- A node of a formed tree. No arithmetic phrase on its own is a part of one. -/
def Node.Formed : Node → Prop
  | document n => n.Formed
  | paragraph n => ∀ s ∈ n.statements, s.Formed
  | stmt n => n.Formed
  | expr n => n.Value ∨ n.Action true ∨ n.Condition
  | variableDeclaration n => ∀ e ∈ n.initializer, e.Value
  | shape _ | slot _ | reference _ | typeName _ | label _ => True

/-- A node that a text is read as: a formed one of some sorts, or an arithmetic phrase on its
    own. -/
inductive Node.Root : Node → Prop where
  | document {d} (h : d.Formed) : Root (.document d)
  | stmt {s} (h : s.Formed) : Root (.stmt s)
  | value {e} (h : e.Value) : Root (.expr e)
  | action {e} (h : e.Action false) : Root (.expr e)
  | declaration {d : VariableDeclaration} (h : ∀ e ∈ d.initializer, e.Value) :
      Root (.variableDeclaration d)
  | reference {r} : Root (.reference r)

/-! Below a formed node. -/

/-- A name, or an expression of a class. -/
def Node.IsPart (Q : Expr → Prop) : Node → Prop
  | expr e => Q e
  | reference _ => True
  | _ => False

theorem Node.IsPart.mono {Q Q' : Expr → Prop} (hQ : ∀ e, Q e → Q' e) {n : Node} (h : n.IsPart Q) :
    n.IsPart Q' := by
  cases n with
  | expr e => exact hQ e h
  | reference r => trivial
  | _ => exact h.elim

theorem Node.IsPart.formed {n : Node} (h : n.IsPart Expr.Value) : n.Formed := by
  cases n with
  | expr e => exact .inl h
  | reference r => trivial
  | _ => exact h.elim

namespace Expr

variable {inPlace : Bool} {e : Expr} {c : Node}

theorem Literal.isValue (h : e.Literal) : e.Value := .operand (.literal h)

theorem Operand.parts (h : e.Operand) : ∀ c ∈ e.children, c.IsPart Operand := by
  cases h with
  | literal h =>
    cases h with
    | inches => exact List.forall_mem_singleton.2 (.literal .int)
    | int | text | bytes | ratio | null => exact nofun
  | slot howner =>
    exact List.forall_mem_cons.2 ⟨.literal howner, List.forall_mem_singleton.2 trivial⟩
  | reference => exact List.forall_mem_singleton.2 trivial
  | math hfirst hsecond =>
    exact List.forall_mem_cons.2 ⟨hfirst, List.forall_mem_singleton.2 hsecond⟩

theorem Test.parts (h : e.Test) : ∀ c ∈ e.children, c.IsPart Operand := by
  cases h with
  | comparison _ hfirst hsecond =>
    exact List.forall_mem_cons.2 ⟨hfirst, List.forall_mem_singleton.2 hsecond⟩

theorem Value.parts (h : e.Value) : ∀ c ∈ e.children, c.IsPart Operand := by
  cases h with
  | operand h => exact h.parts
  | test h => exact h.parts

/-- Only an action has a comparison below it. -/
theorem Action.parts (h : e.Action inPlace) : ∀ c ∈ e.children, c.IsPart Value := by
  cases h with
  | assignment hvalue | update hvalue =>
    exact List.forall_mem_cons.2 ⟨trivial, List.forall_mem_singleton.2 hvalue⟩

theorem Condition.parts (h : e.Condition) : ∀ c ∈ e.children, c.IsPart Operand := by
  cases h with
  | test h => exact h.parts
  | call h =>
    refine List.forall_mem_map.2 fun e' he' => ?_
    obtain ⟨r, s, rfl, -⟩ := h e' he'
    exact .reference
  | unread => exact nofun

/-- Below a part stand parts. -/
theorem isPart_of_mem_children {n : Node} (h : n.IsPart Value) (hc : c ∈ n.children) :
    c.IsPart Value := by
  cases n with
  | expr e => exact (Value.parts h c hc).mono fun _ => .operand
  | reference r =>
    obtain ⟨_, -, rfl⟩ := List.mem_map.1 hc
    trivial
  | _ => exact h.elim

/-- Below an expression stand names and values, and only operands unless it is an action. -/
theorem parts_of_formed (h : (Node.expr e).Formed) :
    (∀ c ∈ e.children, c.IsPart Operand) ∨
      e.Action true ∧ ∀ c ∈ e.children, c.IsPart Value := by
  rcases h with h | h | h
  · exact .inl h.parts
  · exact .inr ⟨h, h.parts⟩
  · exact .inl h.parts

end Expr

namespace Stmt

variable {s : Stmt}

/-- What stands directly below a formed statement is formed. -/
theorem Formed.of_mem_children (h : s.Formed) : ∀ c ∈ s.children, c.Formed := by
  cases h with
  | block h => exact List.forall_mem_map.2 h
  | paragraph h =>
    exact List.forall_mem_append.2 ⟨List.forall_mem_map.2 fun _ _ => trivial, List.forall_mem_map.2 h⟩
  | variableDeclaration h => exact List.forall_mem_singleton.2 h
  | shapeDeclaration => exact List.forall_mem_singleton.2 trivial
  | constantDeclaration h =>
    exact List.forall_mem_cons.2 ⟨trivial, List.forall_mem_singleton.2 (.inl h.isValue)⟩
  | unitAlias =>
    exact List.forall_mem_cons.2 ⟨trivial, List.forall_mem_cons.2
      ⟨.inl (Expr.Literal.int.isValue), List.forall_mem_singleton.2 trivial⟩⟩
  | pointerDeclaration =>
    exact List.forall_mem_cons.2 ⟨trivial, List.forall_mem_singleton.2 trivial⟩
  | expression h => exact List.forall_mem_singleton.2 (.inr (.inl h))
  | conditional hcondition hbranch =>
    exact List.forall_mem_cons.2 ⟨.inr (.inr hcondition), List.forall_mem_singleton.2 hbranch⟩
  | result h => exact List.forall_mem_singleton.2 (.inl h)
  | invocation =>
    exact List.forall_mem_append.2
      ⟨List.forall_mem_map.2 fun _ _ => trivial, List.forall_mem_map.2 fun _ _ => trivial⟩
  | labeled h => exact List.forall_mem_cons.2 ⟨trivial, List.forall_mem_singleton.2 h⟩
  | invalid => exact nofun

end Stmt

namespace Node

/-- Being formed passes on from a node to its children. -/
theorem Formed.of_mem_children {n c : Node} (h : n.Formed) (hc : c ∈ n.children) : c.Formed := by
  cases n with
  | document n =>
    obtain ⟨p, hp, rfl⟩ := List.mem_map.1 hc
    exact h p hp
  | paragraph n =>
    rcases List.mem_append.1 hc with hc | hc
    · obtain ⟨l, -, rfl⟩ := List.mem_map.1 hc
      trivial
    · obtain ⟨s, hs, rfl⟩ := List.mem_map.1 hc
      exact h s hs
  | stmt n => exact Stmt.Formed.of_mem_children h c hc
  | expr n =>
    rcases Expr.parts_of_formed h with hparts | ⟨-, hparts⟩
    · exact ((hparts c hc).mono fun _ => .operand).formed
    · exact (hparts c hc).formed
  | variableDeclaration n =>
    rcases List.mem_cons.1 hc with rfl | hc
    · trivial
    · obtain ⟨e, he, rfl⟩ := List.mem_map.1 hc
      exact .inl (h e (Option.mem_toList.1 he))
  | shape n =>
    rcases List.mem_append.1 hc with hc | hc <;> obtain ⟨_, -, rfl⟩ := List.mem_map.1 hc <;> trivial
  | reference n =>
    obtain ⟨_, -, rfl⟩ := List.mem_map.1 hc
    trivial
  | label n =>
    rcases List.mem_append.1 hc with hc | hc <;> obtain ⟨_, -, rfl⟩ := List.mem_map.1 hc <;> trivial
  | slot n | typeName n => exact absurd hc List.not_mem_nil

/-- All nodes of a formed tree are formed. -/
theorem Formed.of_mem_preorder {n m : Node} (h : n.Formed) (hm : m ∈ n.preorder) : m.Formed :=
  forall_mem_preorder (fun _ _ => Formed.of_mem_children) n h m hm

/-- Below a node that a text is read as, all nodes are formed. -/
theorem Root.formed_of_mem_children {n c : Node} (h : n.Root) (hc : c ∈ n.children) : c.Formed := by
  cases h with
  | @document d h => exact Formed.of_mem_children (n := .document d) h hc
  | @stmt s h => exact Formed.of_mem_children (n := .stmt s) h hc
  | @value e h => exact Formed.of_mem_children (n := .expr e) (.inl h) hc
  | action h => exact (h.parts c hc).formed
  | @declaration d h => exact Formed.of_mem_children (n := .variableDeclaration d) h hc
  | @reference r => exact Formed.of_mem_children (n := .reference r) trivial hc

end Node

end Prose
