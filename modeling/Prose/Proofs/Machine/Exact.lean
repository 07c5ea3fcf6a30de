import Prose.Proofs.Machine.Effects

/- Arithmetic on numbers is exact. In an expression that is made of numbers, of variables
   that hold numbers and of operations, each operation is first computed without any bound
   on its result. The machine gives the exact value if every one of these results has 64
   bits and nothing is divided by zero. Otherwise the first operation that fails, in the
   order in which the machine comes to them, says what the error is. -/
namespace Prose

open Machine

/-! Expressions on numbers and what they say exactly. -/

/-- In a memory an expression is arithmetic on numbers: whole numbers, lengths of such
    expressions, names of variables that hold numbers, and operations on them. -/
inductive Expr.Numeric (m : Memory) : Expr → Prop
  | int (n : Int) (span : Span) : Numeric m (.int n span)
  | inches {value : Expr} (span : Span) (hvalue : Numeric m value) : Numeric m (.inches value span)
  | reference {r : Reference} {n : Int} (span : Span) (howners : r.owners = [])
      (hvalue : m.value r.name = .ok (.int n)) : Numeric m (.reference r span)
  | math {first second : Expr} (op : MathOp) (span : Span) (hfirst : Numeric m first)
      (hsecond : Numeric m second) : Numeric m (.math op first second span)

/-- The exact value of arithmetic on numbers, however great it is. A quotient is cut off
    toward zero. -/
def Expr.exact (m : Memory) : Expr → Int
  | int n _ => n
  | inches value _ => value.exact m
  | reference r _ =>
    match m.value r.name with
    | .ok (.int n) => n
    | _ => 0
  | math op first second _ => exactResult op (first.exact m) (second.exact m)
  | _ => 0

/-- An operation with its two operands. -/
structure Operation where
  op : MathOp
  first : Expr
  second : Expr

/-- All operations of an arithmetic expression: those of the first operand, then those of
    the second, and then its own. -/
def Expr.operations : Expr → List Operation
  | inches value _ => value.operations
  | math op first second _ => first.operations ++ second.operations ++ [⟨op, first, second⟩]
  | _ => []

namespace Operation

/-- The exact value of an operation. -/
def exact (m : Memory) (o : Operation) : Int :=
  exactResult o.op (o.first.exact m) (o.second.exact m)

/-- Nothing is divided by zero, and the exact value has 64 bits. -/
def Sound (m : Memory) (o : Operation) : Prop :=
  (o.op = .divide → o.second.exact m ≠ 0) ∧
    -9223372036854775808 ≤ o.exact m ∧ o.exact m ≤ 9223372036854775807

instance (m : Memory) (o : Operation) : Decidable (o.Sound m) := inferInstanceAs (Decidable (_ ∧ _))

/-- What is wrong with an operation that is not sound. -/
def offence (m : Memory) (o : Operation) : RunError :=
  if o.op = .divide ∧ o.second.exact m = 0 then .divisionByZero
  else .overflow (operationName o.op)

/-- The machine does an operation exactly, or says what is wrong with it. -/
theorem integerMath_eq (m : Memory) (o : Operation) :
    integerMath o.op (o.first.exact m) (o.second.exact m) =
      if o.Sound m then .ok (o.exact m) else .error (o.offence m) := by
  rw [integerMath, offence]
  by_cases hzero : o.op = .divide ∧ o.second.exact m = 0
  · have hunsound : ¬ o.Sound m := fun h => h.1 hzero.1 hzero.2
    rw [if_pos hzero, if_neg hunsound, if_pos hzero]
  · have hsound : o.Sound m ↔ Text.fitsInteger (o.exact m) := by
      rw [Text.fitsInteger, Bool.and_eq_true, decide_eq_true_eq, decide_eq_true_eq]
      exact and_iff_right fun hop h => hzero ⟨hop, h⟩
    simp only [hzero, if_false, hsound]
    rfl

end Operation

variable {m : Memory} {e : Expr}

/-- The operations of an arithmetic expression are all those in its tree. -/
theorem Expr.Numeric.mem_operations_iff (h : e.Numeric m) {op : MathOp} {a b : Expr} :
    ⟨op, a, b⟩ ∈ e.operations ↔ ∃ span, .expr (.math op a b span) ∈ (Node.expr e).preorder := by
  induction h with
  | int => simp [operations, Node.preorder_eq, Node.children, children]
  | inches span hvalue ih =>
    rw [operations, ih, Node.preorder_eq (.expr (.inches ..))]
    simp [Node.children, children]
  | reference span howners hvalue =>
    simp [operations, Node.preorder_eq, Node.children, children, Reference.owner?, howners]
  | @math first second op' span hfirst hsecond ihfirst ihsecond =>
    have hself : (⟨op, a, b⟩ : Operation) ∈ [⟨op', first, second⟩] ↔
        ∃ s, Node.expr (.math op a b s) = .expr (.math op' first second span) := by simp
    rw [operations, List.mem_append, List.mem_append, ihfirst, ihsecond, hself,
      Node.preorder_eq (.expr (.math op' first second span)), ← exists_or, ← exists_or]
    simp [Node.children, children, or_comm]

namespace Machine

/-- What arithmetic on numbers comes to: the exact value, or the error of the first
    operation that is not sound. -/
def exactOutcome (m : Memory) (e : Expr) : Except RunError Value :=
  match e.operations.find? fun o => ¬ o.Sound m with
  | some o => .error (o.offence m)
  | none => .ok (.int (e.exact m))

/-- Operands come before the operation itself. -/
theorem exactOutcome_math (m : Memory) (op : MathOp) (first second : Expr) (span : Span) :
    exactOutcome m (.math op first second span) = (do
      let a ← exactOutcome m first
      let b ← exactOutcome m second
      math op a b) := by
  simp only [exactOutcome, Expr.operations, List.find?_append]
  cases first.operations.find? fun o => ¬ o.Sound m with
  | some o => rfl
  | none =>
    cases second.operations.find? fun o => ¬ o.Sound m with
    | some o => rfl
    | none =>
      have hmath := Operation.integerMath_eq m ⟨op, first, second⟩
      simp only [Option.none_or, bind, Except.bind, math, hmath, List.find?_singleton]
      by_cases hsound : Operation.Sound m ⟨op, first, second⟩
      · simp only [hsound]; rfl
      · simp only [hsound]; rfl

/-- Evaluation of arithmetic on numbers is exact and leaves the memory as it is. -/
theorem run_evaluate_numeric (h : e.Numeric m) : (evaluate e).run m = (exactOutcome m e, m) := by
  induction h with
  | int => rfl
  | inches span hvalue ih =>
    rw [evaluate, ih]
    rfl
  | reference span howners hvalue =>
    rw [evaluate, run_readReference, localName_eq_ok_iff.2 ⟨howners, rfl⟩]
    simp only [bind, Except.bind, exactOutcome, Expr.operations, List.find?_nil, Expr.exact, hvalue]
  | math op span hfirst hsecond ihfirst ihsecond =>
    rw [evaluate, exactOutcome_math]
    simp only [run_bind, ihfirst]
    cases exactOutcome m _ with
    | error err => rfl
    | ok a =>
      simp only [ihsecond]
      cases exactOutcome m _ with
      | error err => rfl
      | ok b => exact run_lift _ m

theorem exactOutcome_eq_ok_iff {v : Value} : exactOutcome m e = .ok v ↔
    (∀ o ∈ e.operations, o.Sound m) ∧ v = .int (e.exact m) := by
  rw [exactOutcome]
  split
  · next o hfind =>
    have hunsound : ¬ o.Sound m := by simpa using List.find?_some hfind
    exact iff_of_false nofun fun h => hunsound (h.1 o (List.mem_of_find?_eq_some hfind))
  · next hfind =>
    have hsound : ∀ o ∈ e.operations, o.Sound m := by simpa using hfind
    rw [and_iff_right hsound, Except.ok.injEq, eq_comm]

theorem exactOutcome_eq_error_iff {err : RunError} : exactOutcome m e = .error err ↔
    ∃ before o after, e.operations = before ++ o :: after ∧ (∀ b ∈ before, b.Sound m) ∧
      ¬ o.Sound m ∧ err = o.offence m := by
  have hfirst : exactOutcome m e = .error err ↔
      ∃ o, e.operations.find? (fun o => ¬ o.Sound m) = some o ∧ err = o.offence m := by
    rw [exactOutcome]
    cases e.operations.find? fun o => ¬ o.Sound m <;> simp [eq_comm]
  rw [hfirst]
  constructor
  · rintro ⟨o, hfind, rfl⟩
    obtain ⟨hunsound, before, after, heq, hbefore⟩ := List.find?_eq_some_iff_append.1 hfind
    exact ⟨before, o, after, heq, by simpa using hbefore, by simpa using hunsound, rfl⟩
  · rintro ⟨before, o, after, heq, hbefore, hunsound, rfl⟩
    have hfind : ∃ as bs, e.operations = as ++ o :: bs ∧ ∀ a ∈ as, !decide (¬ a.Sound m) :=
      ⟨before, after, heq, by simpa using hbefore⟩
    exact ⟨o, List.find?_eq_some_iff_append.2 ⟨by simpa using hunsound, hfind⟩, rfl⟩

end Machine

end Prose
