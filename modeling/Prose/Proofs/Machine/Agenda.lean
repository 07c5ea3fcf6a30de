import Mathlib
import Prose.Proofs.Document.Formed
import Prose.Proofs.Machine.Effects

/- The machine in single steps. An agenda is what is still to be run. A step opens up the
   statement in front of it, or completes it if it is a leaf: a declaration, a constant or
   an expression statement. A run that fails is all steps up to the statement that fails.
   In formed trees values and conditions only read the memory, and a leaf changes it at its
   very end, so the statement that fails changes nothing. -/
namespace Prose

/-! Values and conditions have no targets. -/

theorem Node.targets_eq_nil {n : Node} (h : n.target? = none)
    (hchildren : ∀ c ∈ n.children, c.targets = []) : n.targets = [] := by
  rw [targets, preorder_eq, List.filterMap_cons, h, List.filterMap_flatMap]
  exact List.flatMap_eq_nil_iff.2 hchildren

theorem Node.targets_of_isPart {n : Node} (h : n.IsPart Expr.Value) : n.targets = [] := by
  refine List.filterMap_eq_nil_iff.2 fun m hm => ?_
  have hpart := forall_mem_preorder (fun _ _ => Expr.isPart_of_mem_children) n h m hm
  -- only actions have a target, and no part is one
  cases m with
  | expr e =>
    have hvalue : e.Value := hpart
    cases hvalue with
    | operand h =>
      cases h with
      | literal h => cases h <;> rfl
      | slot | reference | math => rfl
    | test h => cases h; rfl
  | _ => rfl

namespace Expr

variable {e : Expr}

theorem Value.targets (h : e.Value) : (Node.expr e).targets = [] := Node.targets_of_isPart h

theorem Condition.targets (h : e.Condition) : (Node.expr e).targets = [] := by
  have hparts : ∀ c ∈ (Node.expr e).children, c.targets = [] := fun c hc =>
    Node.targets_of_isPart ((h.parts c hc).mono fun _ => .operand)
  cases h with
  | test h => exact Value.targets (.test h)
  | call | unread => exact Node.targets_eq_nil rfl hparts

end Expr

namespace Machine

variable {α β : Type} {e : Expr} {s : Stmt} {m m' : Memory}

/-! Runs that only read, and runs that change the memory at their very end. -/

/-- Whatever comes of the run, the memory is as it was. -/
def OnlyReads (x : Run α) : Prop := Keeps Eq x

theorem stepwise_eq : Stepwise Eq [] := ⟨fun _ => rfl, Eq.trans, nofun⟩

theorem onlyReads_evaluate (h : (Node.expr e).targets = []) : OnlyReads (evaluate e) :=
  Stepwise.keeps_evaluate e (h ▸ stepwise_eq)

theorem OnlyReads.run_eq {x : Run α} (h : OnlyReads x) (m : Memory) : x.run m = ((x.run m).1, m) :=
  Prod.ext rfl (h m).symm

/-- Where the run stops, the memory is as it was. -/
def StopsClean (x : Run α) : Prop := ∀ m e m', x.run m = (.error e, m') → m' = m

theorem OnlyReads.bind {x : Run α} {f : α → Run β} (hx : OnlyReads x) (hf : ∀ a, StopsClean (f a)) :
    StopsClean (x >>= f) := by
  intro m e m' h
  have hread := hx m
  rw [run_bind] at h
  rcases hrun : x.run m with ⟨e' | a, m''⟩ <;> rw [hrun] at h hread
  · exact (Prod.mk.inj h).2.symm.trans hread.symm
  · have hclean := hf a m'' e m' h
    exact hclean.trans hread.symm

theorem stopsClean_declare (name shape : String) (value : Value) :
    StopsClean (Run.declare name shape value) := by
  intro m e m' h
  rw [run_declare] at h
  rcases hdeclare : m.declare name shape value with e' | m'' <;> rw [hdeclare] at h
  · exact (Prod.mk.inj h).2.symm
  · cases h

theorem stopsClean_writeReference (r : Reference) (value : Value) :
    StopsClean (writeReference r value) := by
  intro m e m' h
  rw [run_writeReference] at h
  split at h
  · cases h
  · exact (Prod.mk.inj h).2.symm

theorem StopsClean.andThen {x : Run α} (h : StopsClean x) (b : β) :
    StopsClean (x >>= fun _ => (pure b : Run β)) := by
  intro m e m' hrun
  rw [run_bind] at hrun
  rcases hx : x.run m with ⟨e' | a, m''⟩ <;> rw [hx] at hrun
  · obtain ⟨-, rfl⟩ := Prod.mk.inj hrun
    exact h m e' m'' hx
  · cases hrun

/-- An action reads all it needs before it writes. -/
theorem stopsClean_action {inPlace : Bool} (h : e.Action inPlace) : StopsClean (evaluate e) := by
  cases h with
  | assignment hvalue =>
    rw [evaluate]
    exact (onlyReads_evaluate hvalue.targets).bind fun _ => stopsClean_writeReference _ _
  | update hvalue =>
    rw [evaluate]
    have hread (r : Reference) : OnlyReads (readReference r) := stepwise_eq.keeps_readReference r
    refine (hread _).bind fun current => (onlyReads_evaluate hvalue.targets).bind fun operand => ?_
    exact OnlyReads.bind (stepwise_eq.keeps_lift _) fun value => stopsClean_writeReference _ value

/-! Steps. -/

/-- Whether a statement has no statements in it: a declaration, a constant or an expression. -/
def isLeaf : Stmt → Bool
  | .variableDeclaration .. | .constantDeclaration .. | .expression .. => true
  | _ => false

/-- A leaf that fails changes nothing. -/
theorem stopsClean_leaf (h : s.Formed) (hleaf : isLeaf s) : StopsClean (runStmt s) := by
  cases h with
  | @variableDeclaration d span hvalue =>
    rw [runStmt, declareVariable]
    cases hinitializer : d.initializer with
    | none => exact OnlyReads.bind (stepwise_eq.keeps_pure _) fun _ => stopsClean_declare _ _ _
    | some e =>
      have hreads := onlyReads_evaluate (hvalue e hinitializer).targets
      exact hreads.bind fun _ => stopsClean_declare _ _ _
  | constantDeclaration hvalue =>
    rw [runStmt, declareConstant]
    refine OnlyReads.bind (stepwise_eq.keeps_lift _) fun name => ?_
    exact (onlyReads_evaluate hvalue.isValue.targets).bind fun _ => stopsClean_declare _ _ _
  | expression hvalue =>
    rw [runStmt]
    exact (stopsClean_action hvalue).andThen _
  | _ => cases hleaf

/-- One step of the machine. What stands in front of the agenda is a leaf that is completed,
    which the step gives, or it is opened up: a block and a paragraph without a label are
    their statements, and a condition is its branch or nothing, as its value says. -/
inductive Step : List Stmt → Memory → Option Stmt → List Stmt → Memory → Prop where
  | leaf {s : Stmt} {rest : List Stmt} {m m' : Memory} (hleaf : isLeaf s)
      (h : (runStmt s).run m = (.ok (), m')) : Step (s :: rest) m (some s) rest m'
  | block {body rest : List Stmt} {span : Span} {m : Memory} :
      Step (.block body span :: rest) m none (body ++ rest) m
  | paragraph {statements rest : List Stmt} {span : Span} {m : Memory} :
      Step (.paragraph statements none span :: rest) m none (statements ++ rest) m
  | taken {condition : Expr} {branch : Stmt} {span : Span} {rest : List Stmt} {m m' : Memory}
      (h : (evaluate condition).run m = (.ok (.bool true), m')) :
      Step (.conditional condition branch span :: rest) m none (branch :: rest) m'
  | passed {condition : Expr} {branch : Stmt} {span : Span} {rest : List Stmt} {m m' : Memory}
      (h : (evaluate condition).run m = (.ok (.bool false), m')) :
      Step (.conditional condition branch span :: rest) m none rest m'

/-- Some steps one after the other, with the leaves that they completed, in their order. -/
inductive Steps : List Stmt → Memory → List Stmt → List Stmt → Memory → Prop where
  | refl {agenda : List Stmt} {m : Memory} : Steps agenda m [] agenda m
  | step {agenda agenda' agenda'' done : List Stmt} {m m' m'' : Memory} {leaf : Option Stmt}
      (h : Step agenda m leaf agenda' m') (hlater : Steps agenda' m' done agenda'' m'') :
      Steps agenda m (leaf.toList ++ done) agenda'' m''

variable {agenda agenda' rest : List Stmt} {leaf : Option Stmt}

theorem runStmts_append (ss ts : List Stmt) (m : Memory) :
    (runStmts (ss ++ ts)).run m = (runStmts ss >>= fun _ => runStmts ts : Run Unit).run m := by
  induction ss generalizing m with
  | nil => rfl
  | cons s ss ih =>
    rw [List.cons_append, runStmts, runStmts, run_bind, run_bind, run_bind]
    rcases (runStmt s).run m with ⟨e | a, m'⟩
    · rfl
    · exact (ih m').trans (run_bind ..)

/-- A step is a part of the run of its agenda. -/
theorem Step.run_eq (h : Step agenda m leaf agenda' m') :
    (runStmts agenda).run m = (runStmts agenda').run m' := by
  cases h with
  | leaf hleaf h => rw [runStmts, run_bind, h]
  | block => rw [runStmts_append, runStmts, runStmt]
  | paragraph => rw [runStmts_append, runStmts, runStmt]; rfl
  | taken h => rw [runStmts, runStmts, run_bind, run_bind, runStmt, run_bind, h]
  | passed h => rw [runStmts, run_bind, runStmt, run_bind, h]; rfl

theorem Step.isLeaf (h : Step agenda m leaf agenda' m') : ∀ s ∈ leaf, Machine.isLeaf s := by
  cases h with
  | leaf hleaf => exact fun s hs => Option.some.inj hs ▸ hleaf
  | block | paragraph | taken | passed => exact nofun

theorem Step.formed (h : Step agenda m leaf agenda' m') (hagenda : ∀ s ∈ agenda, s.Formed) :
    ∀ s ∈ agenda', s.Formed := by
  obtain ⟨s, rest, rfl⟩ : ∃ s rest, agenda = s :: rest := by cases h <;> exact ⟨_, _, rfl⟩
  obtain ⟨hs, hrest⟩ := List.forall_mem_cons.1 hagenda
  cases h with
  | leaf => exact hrest
  | block => cases hs with | block hbody => exact List.forall_mem_append.2 ⟨hbody, hrest⟩
  | paragraph =>
    cases hs with | paragraph hstatements => exact List.forall_mem_append.2 ⟨hstatements, hrest⟩
  | taken => cases hs with | conditional _ hbranch => exact List.forall_mem_cons.2 ⟨hbranch, hrest⟩
  | passed => exact hrest

/-- What completed in a step is all that the step did. -/
theorem Step.completes (h : Step agenda m leaf agenda' m') (hagenda : ∀ s ∈ agenda, s.Formed) :
    (runStmts leaf.toList).run m = (.ok (), m') := by
  have hcondition {condition : Expr} {branch : Stmt} {span : Span} {rest : List Stmt}
      (hs : ∀ s ∈ Stmt.conditional condition branch span :: rest, s.Formed) :
      OnlyReads (evaluate condition) := by
    cases hs _ List.mem_cons_self with
    | conditional hcondition => exact onlyReads_evaluate hcondition.targets
  cases h with
  | leaf _ h => simp [runStmts, h]
  | block | paragraph => rfl
  | taken h | passed h =>
    have hsame : m' = m := by
      rw [(hcondition hagenda).run_eq] at h
      exact (Prod.mk.inj h).2.symm
    rw [hsame]
    rfl

/-- Every step makes the agenda lighter. -/
theorem Step.weights_lt (h : Step agenda m leaf agenda' m') :
    Stmt.weights agenda' < Stmt.weights agenda := by
  have hpos (s : Stmt) : 0 < s.weight := Node.weight_pos (.stmt s)
  cases h with
  | @leaf s =>
    have := hpos s
    rw [Stmt.weights]
    omega
  | block | paragraph =>
    simp only [Stmt.weights_eq_total, total_append, total_cons, Stmt.weight]
    omega
  | taken | passed =>
    simp only [Stmt.weights, Stmt.weight]
    omega

/-- Where there is no step, the statement in front fails, and it changes nothing. -/
theorem exists_step_or_error (hs : s.Formed) (rest : List Stmt) (m : Memory) :
    (∃ leaf agenda' m', Step (s :: rest) m leaf agenda' m') ∨
      ∃ e, (runStmt s).run m = (.error e, m) := by
  by_cases hleaf : Machine.isLeaf s
  · -- a leaf is completed, or it is what fails
    rcases hrun : (runStmt s).run m with ⟨e | _, m'⟩
    · have hsame := stopsClean_leaf hs hleaf m e m' hrun
      exact .inr ⟨e, hsame ▸ rfl⟩
    · exact .inl ⟨_, _, _, .leaf hleaf hrun⟩
  · cases hs with
    | block => exact .inl ⟨_, _, _, .block⟩
    | @paragraph statements label span =>
      cases label with
      | none => exact .inl ⟨_, _, _, .paragraph⟩
      | some label => exact .inr ⟨_, rfl⟩
    | @conditional condition branch span hcondition =>
      have hrun := (onlyReads_evaluate hcondition.targets).run_eq m
      rcases hvalue : ((evaluate condition).run m).1 with e | value <;> rw [hvalue] at hrun
      · exact .inr ⟨e, by rw [runStmt, run_bind, hrun]⟩
      · cases value with
        | bool b =>
          cases b with
          | true => exact .inl ⟨_, _, _, .taken hrun⟩
          | false => exact .inl ⟨_, _, _, .passed hrun⟩
        | null | int | text | bytes => exact .inr ⟨_, by rw [runStmt, run_bind, hrun]; rfl⟩
    | variableDeclaration | constantDeclaration | expression => exact absurd rfl hleaf
    | shapeDeclaration | unitAlias | pointerDeclaration | result | invocation | labeled | invalid =>
      exact .inr ⟨_, rfl⟩

theorem Steps.run_done {done : List Stmt} (h : Steps agenda m done agenda' m')
    (hagenda : ∀ s ∈ agenda, s.Formed) :
    (∀ s ∈ done, Machine.isLeaf s) ∧ (runStmts done).run m = (.ok (), m') := by
  induction h with
  | refl => exact ⟨nofun, rfl⟩
  | step h hlater ih =>
    obtain ⟨hleaves, hrun⟩ := ih (h.formed hagenda)
    refine ⟨List.forall_mem_append.2 ⟨fun s hs => h.isLeaf s (Option.mem_toList.1 hs), hleaves⟩, ?_⟩
    rw [runStmts_append, run_bind, h.completes hagenda]
    exact hrun

/-- A run that fails is some steps up to a statement that fails and changes nothing. -/
theorem exists_steps_of_error {e : RunError} (hagenda : ∀ s ∈ agenda, s.Formed)
    (h : (runStmts agenda).run m = (.error e, m')) :
    ∃ done s rest, Steps agenda m done (s :: rest) m' ∧ (runStmt s).run m' = (.error e, m') ∧
      ∀ leaf agenda' m'', ¬ Step (s :: rest) m' leaf agenda' m'' := by
  -- on the weight of the agenda: a block that is opened up makes it longer, but lighter
  induction hweight : Stmt.weights agenda using Nat.strong_induction_on generalizing agenda m with
  | _ weight ih =>
    by_cases hstep : ∃ leaf agenda' m₁, Step agenda m leaf agenda' m₁
    · obtain ⟨leaf, agenda', m₁, hstep⟩ := hstep
      rw [hstep.run_eq] at h
      obtain ⟨done, s, rest, hsteps, hstop⟩ :=
        ih _ (hweight ▸ hstep.weights_lt) (hstep.formed hagenda) h rfl
      exact ⟨leaf.toList ++ done, s, rest, .step hstep hsteps, hstop⟩
    · cases agenda with
      | nil => cases h
      | cons s rest =>
        rcases exists_step_or_error (hagenda s List.mem_cons_self) rest m with hs | ⟨e', hrun⟩
        · exact absurd hs hstep
        · rw [runStmts, run_bind, hrun] at h
          obtain ⟨he, rfl⟩ := Prod.mk.inj h
          obtain rfl := Except.error.inj he
          exact ⟨[], s, rest, .refl, hrun, fun leaf agenda' m'' hs => hstep ⟨leaf, agenda', m'', hs⟩⟩

/-- The paragraphs of a document in the place of statements. -/
def agendaOf (d : Document) : List Stmt := d.paragraphs.map Paragraph.toStmt

/-- Where the run of a text fails, in whatever memory, it has come step by step to a statement
    that fails. The memory is what the leaves make of it that were completed before; the
    statement that fails, with its condition if it has one, changes nothing. -/
theorem failure_effectless {text : String} {e : RunError}
    (h : executeText text m = (.error e, m')) :
    ∃ done s rest, Steps (agendaOf (Document.parse {} text)) m done (s :: rest) m' ∧
      (∀ s ∈ done, isLeaf s) ∧ (runStmts done).run m = (.ok (), m') ∧
      (runStmt s).run m' = (.error e, m') ∧
      ∀ leaf agenda m'', ¬ Step (s :: rest) m' leaf agenda m'' := by
  have hagenda : ∀ s ∈ agendaOf (Document.parse {} text), s.Formed :=
    List.forall_mem_map.2 fun p hp => .paragraph (Document.formed_parse {} text false p hp)
  rw [executeText, execute, runDocument_eq] at h
  obtain ⟨done, s, rest, hsteps, hstop⟩ := exists_steps_of_error hagenda h
  obtain ⟨hleaves, hrun⟩ := hsteps.run_done hagenda
  exact ⟨done, s, rest, hsteps, hleaves, hrun, hstop⟩

set_option maxRecDepth 4096 in
/-- The second sentence reads a name that is not defined. -/
theorem failure_effectless_undefined :
    let text := "put 5 into a x. put a y into a z."
    let m : Memory := ⟨[("x", ⟨"x", "number", .int 5⟩)], ["x"]⟩
    executeText text {} = (.error (.undefined "y"), m) ∧
      ∃ done s rest, Steps (agendaOf (Document.parse {} text)) {} done (s :: rest) m ∧
        (∀ s ∈ done, isLeaf s) ∧ (runStmts done).run {} = (.ok (), m) ∧
        (runStmt s).run m = (.error (.undefined "y"), m) ∧
        ∀ leaf agenda m', ¬ Step (s :: rest) m leaf agenda m' := by
  intro text m
  have h : executeText text {} = (.error (.undefined "y"), m) := by cbv
  exact ⟨h, failure_effectless h⟩

end Machine

end Prose
