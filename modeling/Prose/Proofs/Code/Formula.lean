import Prose.Code.Dialect
import Prose.Proofs.Grammar.Wording
import Prose.Proofs.Machine.Effects

/- Formulas without parentheses. A formula is a row of operands with an operation between
   any two neighbours, and it is computed in the usual order: multiplication and division
   first, and within each level from left to right. A tree that is grouped as the grammar
   groups has the value of its own row of operands. As with code for a stack machine that is
   followed by more code, this is shown for rows with anything behind them that does not
   reach into them. -/
namespace Prose

open Machine

/-- Operands with operations between them, and nothing that groups them. -/
structure Formula (α : Type) where
  first : α
  rest : List (MathOp × α)

namespace Formula

variable {α β : Type}

/-- One operand alone. -/
def single (a : α) : Formula α := ⟨a, []⟩

/-- A formula that goes on with more operations. -/
def append (x : Formula α) (more : List (MathOp × α)) : Formula α := ⟨x.first, x.rest ++ more⟩

/-- Two formulas with an operation between them. What belonged together in either of them is
    no longer marked. -/
def join (x : Formula α) (op : MathOp) (y : Formula α) : Formula α :=
  x.append ((op, y.first) :: y.rest)

/-- The operands from left to right. -/
def operands (x : Formula α) : List α := x.first :: x.rest.map Prod.snd

/-- The formula with other operands in the places of its own. -/
def map (f : α → β) (x : Formula α) : Formula β :=
  ⟨f x.first, x.rest.map fun step => (step.1, f step.2)⟩

/-- Operands and signs of operations in turn, as they are written. -/
def pieces (x : Formula String) : List String :=
  x.first :: x.rest.flatMap fun step => [Code.mathSign step.1, step.2]

variable {x y : Formula α} {op : MathOp} {more : List (MathOp × α)}

theorem append_nil (x : Formula α) : x.append [] = x := by
  rw [append, List.append_nil]

theorem join_append :
    (x.join op y).append more = x.append ((op, y.first) :: (y.append more).rest) := by
  simp only [join, append, List.append_assoc, List.cons_append]

theorem operands_join : (x.join op y).operands = x.operands ++ y.operands := by
  simp only [operands, join, append, List.map_append, List.map_cons, List.cons_append]

theorem map_join (f : α → β) : (x.join op y).map f = (x.map f).join op (y.map f) := by
  simp only [map, join, append, List.map_append, List.map_cons]

theorem pieces_join {x y : Formula String} :
    (x.join op y).pieces = x.pieces ++ Code.mathSign op :: y.pieces := by
  simp only [pieces, join, append, List.flatMap_append, List.flatMap_cons, List.cons_append,
    List.nil_append]

/-! The value of a formula. -/

/-- Products to the right of a value that has been computed so far. Multiplication and
    division go on with it; addition and subtraction leave it and start a new product. -/
def multiplied (look : α → Except RunError Value) (left : Value) :
    List (MathOp × α) → Except RunError (Formula Value)
  | [] => .ok (single left)
  | (op, a) :: more => do
    let right ← look a
    if op.isFactor then do
      let product ← math op left right
      multiplied look product more
    else do
      let later ← multiplied look right more
      return ⟨left, (op, later.first) :: later.rest⟩

/-- The formula with its products computed. -/
def products (look : α → Except RunError Value) (x : Formula α) :
    Except RunError (Formula Value) := do
  let left ← look x.first
  multiplied look left x.rest

/-- Operations from left to right, whatever they are. -/
def total (x : Formula Value) : Except RunError Value :=
  x.rest.foldlM (fun left step => math step.1 left step.2) x.first

/-- The value of a formula whose operands are looked up: products first, then sums. -/
def value (look : α → Except RunError Value) (x : Formula α) : Except RunError Value := do
  let sum ← x.products look
  sum.total

variable {look : α → Except RunError Value} {a b v : Value} {operand : α}

theorem multiplied_factor (hop : op.isFactor = true) (hb : look operand = .ok b)
    (h : math op a b = .ok v) :
    multiplied look a ((op, operand) :: more) = multiplied look v more := by
  simp only [multiplied, hb, bind, Except.bind, hop, if_true, h]

/-- Addition and subtraction end a product. -/
theorem multiplied_term (hop : op.isFactor = false) :
    multiplied look a ((op, x.first) :: x.rest) =
      (x.products look).map fun later => ⟨a, (op, later.first) :: later.rest⟩ := by
  simp only [multiplied, products, hop, Bool.false_eq_true, if_false]
  rcases look x.first with e | b
  · rfl
  · rfl

theorem total_cons {steps : List (MathOp × Value)} (h : math op a b = .ok v) :
    total ⟨a, (op, b) :: steps⟩ = total ⟨v, steps⟩ := by
  simp only [total, List.foldlM_cons, h, bind, Except.bind]

/-- What follows does not go on with a product. -/
def StartsTerm (more : List (MathOp × α)) : Prop := ∀ step ∈ more.head?, step.1.isFactor = false

/-- Then it leaves the value in front of it alone. -/
theorem StartsTerm.multiplied_eq (h : StartsTerm more) (look : α → Except RunError Value) :
    ∃ steps : Except RunError (List (MathOp × Value)),
      ∀ left, multiplied look left more = steps.map (Formula.mk left) := by
  cases more with
  | nil => exact ⟨.ok [], fun left => rfl⟩
  | cons step more =>
    obtain ⟨op, operand⟩ := step
    have hop : op.isFactor = false := h _ rfl
    refine ⟨(products look ⟨operand, more⟩).map fun later => (op, later.first) :: later.rest, ?_⟩
    intro left
    rw [multiplied_term (x := ⟨operand, more⟩) hop]
    cases products look ⟨operand, more⟩ <;> rfl

/-- In front of whatever follows, the formula is computed to a value. -/
def Multiplies (look : α → Except RunError Value) (x : Formula α) (v : Value) : Prop :=
  ∀ more, (x.append more).products look = multiplied look v more

/-- In front of a further term, the formula adds up to a value. -/
def Adds (look : α → Except RunError Value) (x : Formula α) (v : Value) : Prop :=
  ∀ more, StartsTerm more → (x.append more).value look = (multiplied look v more >>= total)

theorem multiplies_single (h : look operand = .ok v) : (single operand).Multiplies look v := by
  intro more
  simp only [products, append, single, h, bind, Except.bind, List.nil_append]

theorem Multiplies.join (hx : x.Multiplies look a) (hop : op.isFactor = true)
    (hb : look operand = .ok b) (h : math op a b = .ok v) :
    (x.join op (single operand)).Multiplies look v := by
  intro more
  calc
    ((x.join op (single operand)).append more).products look =
        (x.append ((op, operand) :: more)).products look := by rw [join_append]; rfl
    _ = multiplied look a ((op, operand) :: more) := hx _
    _ = multiplied look v more := multiplied_factor hop hb h

theorem Multiplies.adds (hx : x.Multiplies look v) : x.Adds look v := by
  intro more _
  rw [value, hx more]

/-- A product at the right of a sum is computed before it is added, and what follows it is
    added afterwards. -/
theorem Adds.join (hx : x.Adds look a) (hop : op.isFactor = false) (hy : y.Multiplies look b)
    (h : math op a b = .ok v) : (x.join op y).Adds look v := by
  intro more hmore
  have hterm : StartsTerm ((op, y.first) :: (y.append more).rest) := by
    intro step hstep
    obtain rfl := Option.some.inj hstep
    exact hop
  obtain ⟨steps, hsteps⟩ := hmore.multiplied_eq look
  calc
    ((x.join op y).append more).value look =
        (x.append ((op, y.first) :: (y.append more).rest)).value look := by rw [join_append]
    _ = (multiplied look a ((op, y.first) :: (y.append more).rest) >>= total) := hx _ hterm
    _ = (((y.append more).products look).map fun later => ⟨a, (op, later.first) :: later.rest⟩) >>=
        total := congrArg (· >>= total) (multiplied_term (x := y.append more) hop)
    _ = ((steps.map (Formula.mk b)).map fun later => ⟨a, (op, later.first) :: later.rest⟩) >>=
        total := by rw [hy more, hsteps]
    _ = (steps.map (Formula.mk v)) >>= total := by
        rcases steps with e | steps
        · rfl
        · exact total_cons h
    _ = (multiplied look v more >>= total) := by rw [hsteps]

theorem multiplied_map (f : β → α) (left : Value) (steps : List (MathOp × β)) :
    multiplied look left (steps.map fun step => (step.1, f step.2)) =
      multiplied (fun b => look (f b)) left steps := by
  induction steps generalizing left with
  | nil => rfl
  | cons step steps ih => simp only [List.map_cons, multiplied, ih]

/-- It does not matter whether operands are replaced before they are looked up. -/
theorem value_map (f : β → α) (x : Formula β) :
    (x.map f).value look = x.value fun b => look (f b) := by
  simp only [value, products, map, multiplied_map]

theorem Adds.value_eq (hx : x.Adds look v) : x.value look = .ok v := by
  have h := hx [] nofun
  rw [append_nil] at h
  exact h

end Formula

/-! Trees. -/

namespace Expr

/-- The operands of a tree and its operations, from left to right. -/
def formula : Expr → Formula Expr
  | math op first second _ => first.formula.join op second.formula
  | e => .single e

theorem formula_of_operand {e : Expr} (h : e.isMath = false) : e.formula = .single e := by
  cases e with
  | math => cases h
  | _ => rfl

end Expr

namespace Machine

variable {op : MathOp} {first second : Expr} {span : Span} {v : Value} {m m' : Memory}

/-- Both operands of an operation have values, and the operation is on those. -/
theorem evaluate_math (h : (evaluate (.math op first second span)).run m = (.ok v, m')) :
    ∃ a b between, (evaluate first).run m = (.ok a, between) ∧
      (evaluate second).run between = (.ok b, m') ∧ math op a b = .ok v := by
  rw [evaluate, run_bind] at h
  rcases hfirst : (evaluate first).run m with ⟨e | a, between⟩ <;> rw [hfirst] at h
  · cases h
  simp only [run_bind] at h
  rcases hsecond : (evaluate second).run between with ⟨e | b, after⟩ <;> rw [hsecond] at h
  · cases h
  simp only [run_lift] at h
  obtain ⟨hmath, rfl⟩ := Prod.mk.inj h
  exact ⟨a, b, between, rfl, hsecond, hmath⟩

/-- A tree that is grouped as the grammar groups has the value of its row of operands, for
    operands that only read the memory. -/
theorem formula_adds {e : Expr} {look : Expr → Except RunError Value} (hgrouped : e.Arithmetic)
    (hlook : ∀ leaf ∈ e.formula.operands, (evaluate leaf).run m = (look leaf, m))
    (h : (evaluate e).run m = (.ok v, m')) :
    m' = m ∧ e.formula.Adds look v ∧ (e.isSum = false → e.formula.Multiplies look v) := by
  -- on the tree; the left operand of a sum is a sum again, everything else is a product
  fun_induction Expr.formula e generalizing v m' with
  | case1 op first second span ihfirst ihsecond =>
    rw [Formula.operands_join, List.forall_mem_append] at hlook
    obtain ⟨hfirst, hsecond, hlevel⟩ := hgrouped
    obtain ⟨a, b, between, ha, hb, hmath⟩ := evaluate_math h
    obtain ⟨rfl, hadds, hmultiplies⟩ := ihfirst hfirst hlook.1 ha
    obtain ⟨rfl, -, hsecondMultiplies⟩ := ihsecond hsecond hlook.2 hb
    refine ⟨rfl, ?_⟩
    rcases hop : op.isFactor with _ | _ <;> rw [hop] at hlevel
    · have hright : second.isSum = false := hlevel
      refine ⟨hadds.join hop (hsecondMultiplies hright) hmath, ?_⟩
      intro hsum
      rw [Expr.isSum, hop] at hsum
      cases hsum
    · obtain ⟨hleft, hright⟩ := hlevel
      have hoperand := Expr.formula_of_operand hright
      have hlookright : look second = .ok b := by
        have hread := hlook.2 second (by rw [hoperand]; exact List.mem_cons_self)
        exact (Prod.mk.inj (hread.symm.trans hb)).1
      have hjoin := (hmultiplies hleft).join hop hlookright hmath
      rw [hoperand]
      exact ⟨hjoin.adds, fun _ => hjoin⟩
  | case2 e hmath =>
    have hread := hlook e List.mem_cons_self
    obtain ⟨hvalue, hsame⟩ := Prod.mk.inj (hread.symm.trans h)
    have hsingle := Formula.multiplies_single hvalue
    exact ⟨hsame.symm, hsingle.adds, fun _ => hsingle⟩

end Machine

end Prose
