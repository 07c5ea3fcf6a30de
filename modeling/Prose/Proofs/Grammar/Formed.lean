import Prose.Proofs.Grammar.Nested
import Prose.Proofs.Tree.Formed

/- What is read is formed. Every class of expressions that has a derivation is a class of
   formed expressions, and every statement with a derivation is formed, on each level of
   nesting. -/
namespace Prose

namespace Grammar

variable {room : Nat} {ts : List Token} {e : Expr}

/-! Expressions. -/

theorem LiteralFrom.isLiteral (h : LiteralFrom e ts) : e.Literal := by
  cases h with
  | int => exact .int
  | inches => exact .inches
  | text => exact .text
  | bytes => exact .bytes
  | ratio => exact .ratio
  | null => exact .null

theorem OperandFrom.isOperand (h : OperandFrom room e ts) : e.Operand := by
  cases h with
  | literal h => exact .literal h.isLiteral
  | slot howner => exact .slot howner.isLiteral
  | reference => exact .reference

theorem ArithmeticFrom.isOperand (h : ArithmeticFrom room e ts) : e.Operand := by
  induction h with
  | operand h => exact h.isOperand
  | math _ _ _ ihfirst ihsecond => exact .math ihfirst ihsecond

/-- Every comparison that has words could be read. -/
theorem ne_invalid_of_mem_comparisons {kinds : List Kind} {op : Comparison}
    (h : (kinds, op) ∈ comparisons) : op ≠ .invalid := by
  rintro rfl
  have hall : ∀ c ∈ comparisons, c.2 ≠ .invalid := by decide
  exact hall _ h rfl

theorem ComparisonFrom.isTest (h : ComparisonFrom room e ts) : e.Test := by
  cases h with
  | comparison hfirst hop hsecond =>
    exact .comparison (ne_invalid_of_mem_comparisons hop) hfirst.isOperand hsecond.isOperand

theorem ExprFrom.isValue (h : ExprFrom room e ts) : e.Value := by
  cases h with
  | arithmetic h => exact .operand h.isOperand
  | comparison h => exact .test h.isTest

theorem ActionFrom.isAction {inPlace : Bool} (h : ActionFrom room inPlace e ts) :
    e.Action inPlace := by
  cases h with
  | sum _ hoperand => exact .update hoperand.isValue
  | factor _ _ _ hoperand => exact .update hoperand.isValue
  | put _ hvalue => exact .assignment hvalue.isValue
  | letBe _ _ _ _ hvalue => exact .assignment hvalue.isValue

/-- Nothing owns what a marker phrase mentions. -/
theorem Mentioned.owners {r : Reference} (h : Mentioned ts r) : r.owners = [] := by
  cases h with
  | intro => rfl

/-! Conditions. -/

theorem condition_looseCondition (ts : List Token) : (looseCondition ts).Condition := by
  rw [looseCondition]
  split
  · next m hm =>
    refine .call (List.forall_mem_map.2 fun r hr => ⟨r, r.span, rfl, ?_⟩)
    exact (mentioned_splitMarker hm r (List.mem_append_left _ hr)).owners
  · exact .unread

theorem ConditionFrom.isCondition (h : ConditionFrom room e ts) : e.Condition := by
  cases h with
  | comparison h => exact .test h.isTest
  | loose => exact condition_looseCondition _

/-! Statements. -/

theorem DeclarationFrom.formed {d : VariableDeclaration} (h : DeclarationFrom room d ts) :
    ∀ e ∈ d.initializer, e.Value := by
  cases h with
  | declared _ _ _ _ hvalue =>
    cases hvalue with
    | none => exact nofun
    | some _ _ he =>
      intro e heq
      obtain rfl := Option.some.inj heq
      exact he.isValue

theorem PlainFrom.formed {s : Stmt} (h : PlainFrom room s ts) : s.Formed := by
  cases h with
  | declared h => exact .variableDeclaration h.formed
  | unit => exact .unitAlias
  | constant _ _ _ he => exact .constantDeclaration he.isLiteral
  | pointer => exact .pointerDeclaration
  | shape | shapeWith | shapeOf => exact .shapeDeclaration
  | action h => exact .expression h.isAction
  | result _ hvalue => exact .result hvalue.isValue
  | invocation => exact .invocation

/-- Every statement with a derivation is formed; the branches of a condition are statements
    with derivations of their own. -/
theorem StmtFrom.formed {s : Stmt} (h : StmtFrom room s ts) : s.Formed := by
  induction h with
  | plain h => exact h.formed
  | conditional _ htest _ _ _ ih => exact .conditional htest.isCondition ih
  | block _ htest _ _ hlength _ ih =>
    exact .conditional htest.isCondition (.block (forall_mem_branches hlength fun b hb _ => ih b hb))
  | labeled _ _ ih => exact ih.underHeader
  | noBody => exact (Stmt.formed_noBody _).underHeader
  | unread => exact Stmt.formed_ofUnread _
  | uncommented _ ih => exact ih

theorem BareFrom.root {n : Node} (h : BareFrom room n ts) : n.Root := by
  cases h with
  | reference => exact .reference
  | expression h => exact .value h.isValue
  | action h => exact .action h.isAction
  | declaration h => exact .declaration h.formed

end Grammar

end Prose
