import Prose.Machine.Run
import Prose.Proofs.Tree.Preorder

/- What runs do to the memory. A run changes it by declaring variables and by giving the
   targets of assignments and of arithmetic a value, and by nothing else. So a relation
   between a memory and what becomes of it holds for a whole run if it holds for each
   declaration and each of those writes. -/
namespace Prose

/-- The reference that a node gives a value, if it does. -/
def Node.target? : Node → Option Reference
  | expr (.assignment target _ _) | expr (.update _ _ _ target _) => some target
  | _ => none

/-- The references that are given a value anywhere in a tree. -/
def Node.targets (n : Node) : List Reference := n.preorder.filterMap target?

theorem Node.targets_subset {n c : Node} (h : c ∈ n.children) : c.targets ⊆ n.targets :=
  List.filterMap_subset _ (preorder_subset h)

theorem Node.mem_targets {n : Node} {r : Reference} (h : n.target? = some r) : r ∈ n.targets :=
  List.mem_filterMap.2 ⟨n, n.self_mem_preorder, h⟩

namespace Machine

variable {α β : Type} {R : Memory → Memory → Prop}

/-! The parts that runs are made of. -/

@[simp] theorem run_lift (x : Except RunError α) (m : Memory) : (Run.lift x).run m = (x, m) := by
  cases x <;> rfl

theorem run_bind (x : Run α) (f : α → Run β) (m : Memory) :
    (x >>= f).run m = match x.run m with
      | (.ok a, m') => (f a).run m'
      | (.error e, m') => (.error e, m') := by
  simp only [bind, ExceptT.bind, ExceptT.mk, ExceptT.run, StateT.bind]
  rcases x m with ⟨_ | _, m'⟩ <;> rfl

@[simp] theorem run_get (m : Memory) : (get : Run Memory).run m = (.ok m, m) := rfl

theorem run_declare (name shape : String) (value : Value) (m : Memory) :
    (Run.declare name shape value).run m =
      match m.declare name shape value with
      | .ok m' => (.ok (), m')
      | .error e => (.error e, m) := by
  simp only [Run.declare, run_bind, run_get, run_lift]
  cases m.declare name shape value <;> rfl

/-- Only what nothing owns has a name of its own. -/
theorem localName_eq_ok_iff {r : Reference} {name : String} :
    localName r = .ok name ↔ r.owners = [] ∧ r.name = name := by
  rw [localName]
  cases r.owners <;> simp

theorem run_readReference (r : Reference) (m : Memory) :
    (readReference r).run m = (localName r >>= m.value, m) := by
  simp only [readReference, run_bind, run_lift]
  cases localName r <;> simp [bind, Except.bind]

theorem run_writeReference (r : Reference) (value : Value) (m : Memory) :
    (writeReference r value).run m =
      match (do m.assign (← localName r) value) with
      | .ok m' => (.ok value, m')
      | .error e => (.error e, m) := by
  simp only [writeReference, run_bind, run_lift, run_get]
  rcases localName r with e | name
  · rfl
  · simp only [bind, Except.bind]
    cases m.assign name value <;> rfl

/-! Relations that hold along a run. -/

/-- The relation holds between any memory and what the run leaves of it, whether the run
    gives something or stops. -/
def Keeps (R : Memory → Memory → Prop) (x : Run α) : Prop := ∀ m, R m (x.run m).2

/-- A relation between a memory and what becomes of it, step by step, that allows for the
    references to be given values. -/
structure Stepwise (R : Memory → Memory → Prop) (targets : List Reference) : Prop where
  refl : ∀ m, R m m
  trans : ∀ {l m n}, R l m → R m n → R l n
  write : ∀ r ∈ targets, ∀ value, Keeps R (writeReference r value)

namespace Stepwise

variable {targets us : List Reference}

theorem mono (h : Stepwise R targets) (hus : us ⊆ targets) : Stepwise R us :=
  ⟨h.refl, h.trans, fun r hr => h.write r (hus hr)⟩

/-- What stands below a node has no targets that the node does not have. -/
theorem below {n c : Node} (h : Stepwise R n.targets) (hc : c ∈ n.children) :
    Stepwise R c.targets :=
  h.mono (Node.targets_subset hc)

theorem below_second {n c c' : Node} (h : Stepwise R n.targets) (hc : n.children = [c, c']) :
    Stepwise R c'.targets := by
  apply h.below
  rw [hc]
  exact List.mem_cons_of_mem _ (List.mem_singleton_self c')

theorem keeps_pure (h : Stepwise R targets) (a : α) : Keeps R (pure a : Run α) :=
  fun m => h.refl m

theorem keeps_throw (h : Stepwise R targets) (e : RunError) : Keeps R (throw e : Run α) :=
  fun m => h.refl m

theorem keeps_lift (h : Stepwise R targets) (x : Except RunError α) : Keeps R (Run.lift x) := by
  intro m
  rw [run_lift]
  exact h.refl m

theorem keeps_readReference (h : Stepwise R targets) (r : Reference) :
    Keeps R (readReference r) := by
  intro m
  rw [run_readReference]
  exact h.refl m

theorem keeps_bind (h : Stepwise R targets) {x : Run α} {f : α → Run β} (hx : Keeps R x)
    (hf : ∀ a, Keeps R (f a)) : Keeps R (x >>= f) := by
  intro m
  have hfirst := hx m
  rw [run_bind]
  rcases hrun : x.run m with ⟨e | a, m'⟩ <;> rw [hrun] at hfirst
  · exact hfirst
  · exact h.trans hfirst (hf a m')

/-- Evaluation changes nothing but the targets of the tree. -/
theorem keeps_evaluate (e : Expr) (h : Stepwise R (Node.expr e).targets) :
    Keeps R (evaluate e) := by
  cases e with
  | null | int | text | bytes => exact h.keeps_pure _
  | inches value => exact keeps_evaluate value (h.below (List.mem_singleton_self _))
  | reference name => exact h.keeps_readReference name
  | ratio | possessive | invocation | invalid => exact h.keeps_throw _
  | assignment target value =>
    rw [evaluate]
    have hvalue := keeps_evaluate value (h.below_second rfl)
    exact h.keeps_bind hvalue (h.write target (Node.mem_targets rfl))
  | update inPlace op operand target =>
    rw [evaluate]
    have hoperand := keeps_evaluate operand (h.below_second rfl)
    -- the target is read, the operand is evaluated, and only then the target is written
    refine h.keeps_bind (h.keeps_readReference target) fun current => ?_
    refine h.keeps_bind hoperand fun operand => h.keeps_bind (h.keeps_lift _) fun value => ?_
    exact h.write target (Node.mem_targets rfl) value
  | math op first second | comparison op first second =>
    rw [evaluate]
    have hfirst := keeps_evaluate first (h.below List.mem_cons_self)
    have hsecond := keeps_evaluate second (h.below_second rfl)
    exact h.keeps_bind hfirst fun _ => h.keeps_bind hsecond fun _ => h.keeps_lift _

theorem keeps_declareVariable (d : VariableDeclaration)
    (h : Stepwise R (Node.variableDeclaration d).targets)
    (hdeclare : ∀ name shape value, Keeps R (Run.declare name shape value)) :
    Keeps R (declareVariable d) := by
  rw [declareVariable]
  cases hvalue : d.initializer with
  | none => exact h.keeps_bind (h.keeps_pure _) (hdeclare _ _)
  | some e =>
    have hc : .expr e ∈ (Node.variableDeclaration d).children := by simp [Node.children, hvalue]
    exact h.keeps_bind (keeps_evaluate e (h.below hc)) (hdeclare _ _)

theorem keeps_declareConstant (name : Reference) (value : Expr)
    (h : Stepwise R (Node.expr value).targets)
    (hdeclare : ∀ name shape value, Keeps R (Run.declare name shape value)) :
    Keeps R (declareConstant name value) := by
  rw [declareConstant]
  refine h.keeps_bind (h.keeps_lift _) fun name => ?_
  exact h.keeps_bind (keeps_evaluate value h) fun v => hdeclare _ _ v

mutual

/-- Running a statement declares variables and changes the targets of the tree. -/
theorem keeps_runStmt (s : Stmt) (h : Stepwise R (Node.stmt s).targets)
    (hdeclare : ∀ name shape value, Keeps R (Run.declare name shape value)) :
    Keeps R (runStmt s) := by
  cases s with
  | block body span =>
    rw [runStmt]
    have hbody : ∀ s ∈ body, (Node.stmt s).targets ⊆ (Node.stmt (.block body span)).targets :=
      fun s hs => Node.targets_subset (List.mem_map_of_mem hs)
    exact keeps_runStmts body h hbody hdeclare
  | paragraph statements label span =>
    rw [runStmt]
    split
    · exact h.keeps_throw _
    · have hstatements : ∀ s ∈ statements,
          (Node.stmt s).targets ⊆ (Node.stmt (.paragraph statements label span)).targets :=
        fun s hs => Node.targets_subset (List.mem_append_right _ (List.mem_map_of_mem hs))
      exact keeps_runStmts statements h hstatements hdeclare
  | variableDeclaration d =>
    exact keeps_declareVariable d (h.below (List.mem_singleton_self _)) hdeclare
  | constantDeclaration name value =>
    exact keeps_declareConstant name value (h.below_second rfl) hdeclare
  | expression value =>
    rw [runStmt]
    have hvalue := keeps_evaluate value (h.below (List.mem_singleton_self _))
    exact h.keeps_bind hvalue fun _ => h.keeps_pure _
  | conditional condition branch =>
    rw [runStmt]
    have hcondition := keeps_evaluate condition (h.below List.mem_cons_self)
    have hbranch : Stepwise R (Node.stmt branch).targets := h.below_second rfl
    refine h.keeps_bind hcondition fun value => ?_
    split
    · exact keeps_runStmt branch hbranch hdeclare
    · exact h.keeps_pure _
    · exact h.keeps_throw _
  | shapeDeclaration | unitAlias | pointerDeclaration | result | invocation | labeled | invalid =>
    exact h.keeps_throw _

theorem keeps_runStmts {all : List Reference} (ss : List Stmt) (h : Stepwise R all)
    (hss : ∀ s ∈ ss, (Node.stmt s).targets ⊆ all)
    (hdeclare : ∀ name shape value, Keeps R (Run.declare name shape value)) :
    Keeps R (runStmts ss) := by
  cases ss with
  | nil => exact h.keeps_pure _
  | cons s ss =>
    rw [List.forall_mem_cons] at hss
    rw [runStmts]
    have hfirst := keeps_runStmt s (h.mono hss.1) hdeclare
    exact h.keeps_bind hfirst fun _ => keeps_runStmts ss h hss.2 hdeclare

end

end Stepwise

/-! Documents. -/

/-- A paragraph in the place of a statement. -/
def Paragraph.toStmt (p : Paragraph) : Stmt := .paragraph p.statements p.label p.span

theorem runParagraph_eq (p : Paragraph) : runParagraph p = runStmt (Paragraph.toStmt p) := by
  rw [runParagraph, Paragraph.toStmt, runStmt]

/-- A document is run like its paragraphs, each in the place of a statement. -/
theorem runDocument_eq (d : Document) : runDocument d = runStmts (d.paragraphs.map Paragraph.toStmt) := by
  rw [runDocument]
  induction d.paragraphs with
  | nil => rfl
  | cons p ps ih =>
    rw [List.map_cons, runStmts, ← ih, ← runParagraph_eq]
    rfl

theorem targets_toStmt (p : Paragraph) :
    (Node.stmt (Paragraph.toStmt p)).targets = (Node.paragraph p).targets := by
  rw [Node.targets, Node.targets, Node.preorder_eq, Node.preorder_eq (.paragraph p)]
  rfl

/-- Running a document declares variables and changes the targets of the tree, also where it
    stops. -/
theorem Stepwise.execute (d : Document) (h : Stepwise R (Node.document d).targets)
    (hdeclare : ∀ name shape value, Keeps R (Run.declare name shape value)) (m : Memory) :
    R m (execute d m).2 := by
  rw [Machine.execute, runDocument_eq]
  refine h.keeps_runStmts _ (List.forall_mem_map.2 fun p hp => ?_) hdeclare m
  rw [targets_toStmt]
  exact Node.targets_subset (List.mem_map_of_mem hp)

end Machine

end Prose
