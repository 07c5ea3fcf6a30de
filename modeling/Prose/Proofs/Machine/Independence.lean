import Mathlib.Logic.Function.Basic
import Prose.Proofs.Machine.Table

/- Statements that have nothing to do with each other. A statement sees the names that are
   read or changed anywhere in it, and changes the names that are declared or given a value
   in it. What it does depends on nothing else in the memory, and nothing else changes. So
   two statements can change places if neither of them changes a name that the other one
   sees. -/
namespace Prose

/-! The names in a tree. -/

/-- The name of a reference that nothing owns. -/
def Reference.local? (r : Reference) : Option String :=
  if r.owners = [] then some r.name else none

/-- The name that a node reads, if it does. -/
def Node.readName? : Node → Option String
  | expr (.reference name _) => name.local?
  | _ => none

/-- The name that a node declares or gives a value, if it does. -/
def Node.changedName? : Node → Option String
  | variableDeclaration d => some d.name
  | stmt (.constantDeclaration name _ _) => name.local?
  | n => n.target?.bind Reference.local?

/-- The names that are read anywhere in a tree. -/
def Node.readNames (n : Node) : List String := n.preorder.filterMap readName?

/-- The names that are declared or given a value anywhere in a tree. -/
def Node.changedNames (n : Node) : List String := n.preorder.filterMap changedName?

/-- No name that is changed in one tree is read or changed in the other. -/
structure Node.Independent (n n' : Node) : Prop where
  left : ∀ name ∈ n.changedNames, name ∉ n'.changedNames ∧ name ∉ n'.readNames
  right : ∀ name ∈ n'.changedNames, name ∉ n.changedNames ∧ name ∉ n.readNames

namespace Machine

variable {α β : Type} {seen changed : String → Prop}

theorem localName_eq (r : Reference) : localName r =
    match r.local? with
    | some name => .ok name
    | none => .error (.unsupported .slotAccess) := by
  rw [localName, Reference.local?]
  cases r.owners <;> rfl

/-! What is found after one name was written to. -/

namespace Memory

theorem find?_cons (m : Memory) (name : String) (v : Variable) (order : List String) :
    find? ⟨(name, v) :: m.table, order⟩ = Function.update m.find? name (some v) := by
  funext other
  rw [find?, List.lookup_cons, Function.update_apply]
  by_cases h : other = name
  · rw [if_pos h, h, beq_self_eq_true]
  · rw [if_neg h, beq_false_of_ne h]
    rfl

theorem find?_store_eq_update {m : Memory} {name : String} {v : Variable}
    (h : m.find? name = some v) (value : Value) :
    (m.store name value).find? = Function.update m.find? name (some { v with value := value }) := by
  funext other
  rw [find?_store, Function.update_apply]
  by_cases hname : other = name
  · rw [if_pos hname, hname, h, Option.map_some, if_pos rfl]
  · simp only [if_neg hname, Option.map_id']

end Memory

/-- What a run writes under a name depends on what was there and on nothing else. Where it
    refuses to write, the memory stays as it is. -/
structure Puts (name : String) (put : Option Variable → Except RunError Variable) (a : α)
    (x : Run α) : Prop where
  refused : ∀ {m e}, put (m.find? name) = .error e → x.run m = (.error e, m)
  written : ∀ {m v}, put (m.find? name) = .ok v →
    (x.run m).1 = .ok a ∧ (x.run m).2.find? = Function.update m.find? name (some v)

theorem puts_declare (name shape : String) (value : Value) :
    Puts name (fun
      | some _ => .error (.alreadyDeclared name)
      | none => .ok ⟨name, shape, value⟩) () (Run.declare name shape value) where
  refused {m e} h := by
    rw [run_declare, Memory.declare]
    cases hfound : m.find? name <;> rw [hfound] at h <;> cases h
    rfl
  written {m v} h := by
    rw [run_declare, Memory.declare]
    cases hfound : m.find? name <;> rw [hfound] at h <;> cases h
    exact ⟨rfl, m.find?_cons ..⟩

theorem puts_writeReference {r : Reference} {name : String} (hr : r.local? = some name)
    (value : Value) :
    Puts name (fun
      | some v => .ok { v with value := value }
      | none => .ok ⟨name, value.typeName, value⟩) value (writeReference r value) where
  refused {m e} h := by cases hfound : m.find? name <;> rw [hfound] at h <;> cases h
  written {m v} h := by
    rw [run_writeReference, localName_eq, hr]
    simp only [bind, Except.bind, Memory.assign, Memory.declare]
    cases hfound : m.find? name with
    | some v =>
      rw [hfound] at h
      cases h
      exact ⟨rfl, Memory.find?_store_eq_update hfound value⟩
    | none =>
      -- a name that is new is declared
      rw [hfound] at h
      cases h
      exact ⟨rfl, m.find?_cons ..⟩

/-! Runs that stay within some names. -/

/-- The memories have the same variables under some names. -/
def Agree (names : String → Prop) (m m' : Memory) : Prop :=
  ∀ name, names name → m.find? name = m'.find? name

/-- A run depends on the names it sees alone, and changes no others than it is said to
    change. -/
structure Confined (seen changed : String → Prop) (x : Run α) : Prop where
  agree : ∀ {m m'}, Agree seen m m' →
    (x.run m).1 = (x.run m').1 ∧ Agree seen (x.run m).2 (x.run m').2
  kept : ∀ m, Agree (fun name => ¬ changed name) (x.run m).2 m

namespace Confined

theorem lift (x : Except RunError α) : Confined seen changed (Run.lift x) where
  agree h := by
    rw [run_lift, run_lift]
    exact ⟨rfl, h⟩
  kept m := by
    rw [run_lift]
    exact fun _ _ => rfl

theorem pure' (a : α) : Confined seen changed (pure a : Run α) := lift (.ok a)

theorem throw' (e : RunError) : Confined seen changed (throw e : Run α) := lift (.error e)

theorem bind' {x : Run α} {f : α → Run β} (hx : Confined seen changed x)
    (hf : ∀ a, Confined seen changed (f a)) : Confined seen changed (x >>= f) where
  agree {m m'} h := by
    obtain ⟨hresult, hagree⟩ := hx.agree h
    rw [run_bind, run_bind]
    rcases hrun : x.run m with ⟨e | a, l⟩ <;> rcases hrun' : x.run m' with ⟨e' | a', l'⟩ <;>
      rw [hrun, hrun'] at hresult hagree <;> cases hresult
    · exact ⟨rfl, hagree⟩
    · exact (hf a).agree hagree
  kept m name hname := by
    have hfirst := hx.kept m name hname
    rw [run_bind]
    rcases hrun : x.run m with ⟨e | a, l⟩ <;> rw [hrun] at hfirst
    · exact hfirst
    · exact ((hf a).kept l name hname).trans hfirst

/-- Writing under one name. -/
theorem of_puts {name : String} {put : Option Variable → Except RunError Variable} {a : α}
    {x : Run α} (hx : Puts name put a x) (hseen : seen name) (hchanged : changed name) :
    Confined seen changed x where
  agree {m m'} h := by
    have hsame : m.find? name = m'.find? name := h name hseen
    cases hput : put (m.find? name) with
    | error e =>
      rw [hx.refused hput, hx.refused (hsame ▸ hput)]
      exact ⟨rfl, h⟩
    | ok v =>
      obtain ⟨hresult, hfound⟩ := hx.written hput
      obtain ⟨hresult', hfound'⟩ := hx.written (hsame ▸ hput)
      refine ⟨hresult.trans hresult'.symm, fun other hother => ?_⟩
      rw [hfound, hfound', Function.update_apply, Function.update_apply, h other hother]
  kept m other hother := by
    have hne : other ≠ name := fun heq => hother (heq ▸ hchanged)
    cases hput : put (m.find? name) with
    | error e => rw [hx.refused hput]
    | ok v => rw [(hx.written hput).2, Function.update_of_ne hne]

theorem declare' {name : String} (hseen : seen name) (hchanged : changed name) (shape : String)
    (value : Value) : Confined seen changed (Run.declare name shape value) :=
  of_puts (puts_declare name shape value) hseen hchanged

theorem readReference' {r : Reference} (hr : ∀ name ∈ r.local?, seen name) :
    Confined seen changed (readReference r) where
  agree {m m'} h := by
    rw [run_readReference, run_readReference, localName_eq]
    refine ⟨?_, h⟩
    cases hlocal : r.local? with
    | none => rfl
    | some name =>
      have hname : m.find? name = m'.find? name := h name (hr name hlocal)
      simp only [bind, Except.bind, Memory.value, hname]
  kept m := by
    rw [run_readReference]
    exact fun _ _ => rfl

theorem writeReference' {r : Reference} (hr : ∀ name ∈ r.local?, seen name ∧ changed name)
    (value : Value) : Confined seen changed (writeReference r value) := by
  cases hlocal : r.local? with
  | some name =>
    obtain ⟨hseen, hchanged⟩ := hr name hlocal
    exact of_puts (puts_writeReference hlocal value) hseen hchanged
  | none =>
    have hthrow : writeReference r value = throw (.unsupported .slotAccess) := by
      rw [writeReference, localName_eq, hlocal]
      rfl
    rw [hthrow]
    exact throw' _

end Confined

/-- The names that are read in a tree are seen, and those that it changes are seen and changed. -/
structure Within (seen changed : String → Prop) (n : Node) : Prop where
  reads : ∀ name ∈ n.readNames, seen name
  changes : ∀ name ∈ n.changedNames, seen name ∧ changed name

namespace Within

variable {n c c' : Node}

theorem below (h : Within seen changed n) (hc : c ∈ n.children) : Within seen changed c where
  reads name hname := h.reads name (List.filterMap_subset _ (Node.preorder_subset hc) hname)
  changes name hname := h.changes name (List.filterMap_subset _ (Node.preorder_subset hc) hname)

theorem below_second (h : Within seen changed n) (hc : n.children = [c, c']) :
    Within seen changed c' :=
  h.below (hc ▸ List.mem_cons_of_mem _ (List.mem_singleton_self c'))

theorem of_readName (h : Within seen changed n) : ∀ name ∈ n.readName?, seen name :=
  fun name hname => h.reads name (List.mem_filterMap.2 ⟨n, n.self_mem_preorder, hname⟩)

theorem of_changedName (h : Within seen changed n) :
    ∀ name ∈ n.changedName?, seen name ∧ changed name :=
  fun name hname => h.changes name (List.mem_filterMap.2 ⟨n, n.self_mem_preorder, hname⟩)

end Within

namespace Confined

theorem evaluate' (e : Expr) (h : Within seen changed (.expr e)) :
    Confined seen changed (evaluate e) := by
  cases e with
  | null | int | text | bytes => exact pure' _
  | inches value => exact evaluate' value (h.below (List.mem_singleton_self _))
  | reference name => exact readReference' h.of_readName
  | ratio | possessive | invocation | invalid => exact throw' _
  | assignment target value =>
    rw [evaluate]
    have hvalue := evaluate' value (h.below_second rfl)
    exact bind' hvalue (writeReference' h.of_changedName)
  | update inPlace op operand target =>
    rw [evaluate]
    have htarget : ∀ name ∈ target.local?, seen name ∧ changed name := h.of_changedName
    have hoperand := evaluate' operand (h.below_second rfl)
    refine bind' (readReference' fun name hname => (htarget name hname).1) fun current => ?_
    exact bind' hoperand fun operand => bind' (lift _) (writeReference' htarget)
  | math op first second | comparison op first second =>
    rw [evaluate]
    have hfirst := evaluate' first (h.below List.mem_cons_self)
    have hsecond := evaluate' second (h.below_second rfl)
    exact bind' hfirst fun _ => bind' hsecond fun _ => lift _

theorem declareVariable' (d : VariableDeclaration)
    (h : Within seen changed (.variableDeclaration d)) :
    Confined seen changed (declareVariable d) := by
  obtain ⟨hseen, hchanged⟩ := h.of_changedName d.name rfl
  rw [declareVariable]
  cases hvalue : d.initializer with
  | none => exact bind' (pure' _) fun _ => declare' hseen hchanged _ _
  | some e =>
    have hc : .expr e ∈ (Node.variableDeclaration d).children := by simp [Node.children, hvalue]
    exact bind' (evaluate' e (h.below hc)) fun _ => declare' hseen hchanged _ _

theorem declareConstant' {r : Reference} {value : Expr}
    (hr : ∀ name ∈ r.local?, seen name ∧ changed name)
    (hvalue : Within seen changed (.expr value)) :
    Confined seen changed (declareConstant r value) := by
  rw [declareConstant, localName_eq]
  cases hlocal : r.local? with
  | none => exact throw' _
  | some name =>
    obtain ⟨hseen, hchanged⟩ := hr name hlocal
    have hname : Run.lift (.ok name) = (pure name : Run String) := rfl
    simp only [hname, pure_bind]
    exact bind' (evaluate' value hvalue) fun v => declare' hseen hchanged _ _

mutual

/-- Running a statement sees and changes nothing but the names in its tree. -/
theorem runStmt' (s : Stmt) (h : Within seen changed (.stmt s)) :
    Confined seen changed (runStmt s) := by
  cases s with
  | block body =>
    rw [runStmt]
    exact runStmts' body fun s hs => h.below (List.mem_map_of_mem hs)
  | paragraph statements label =>
    rw [runStmt]
    split
    · exact throw' _
    · exact runStmts' statements fun s hs =>
        h.below (List.mem_append_right _ (List.mem_map_of_mem hs))
  | variableDeclaration d => exact declareVariable' d (h.below (List.mem_singleton_self _))
  | constantDeclaration name value => exact declareConstant' h.of_changedName (h.below_second rfl)
  | expression value =>
    rw [runStmt]
    exact bind' (evaluate' value (h.below (List.mem_singleton_self _))) fun _ => pure' _
  | conditional condition branch =>
    rw [runStmt]
    have hbranch : Within seen changed (.stmt branch) := h.below_second rfl
    -- the two runs take the same branch, since the condition gives the same in both
    refine bind' (evaluate' condition (h.below List.mem_cons_self)) fun value => ?_
    split
    · exact runStmt' branch hbranch
    · exact pure' _
    · exact throw' _
  | shapeDeclaration | unitAlias | pointerDeclaration | result | invocation | labeled | invalid =>
    exact throw' _

theorem runStmts' (ss : List Stmt) (h : ∀ s ∈ ss, Within seen changed (.stmt s)) :
    Confined seen changed (runStmts ss) := by
  cases ss with
  | nil => exact pure' _
  | cons s ss =>
    rw [List.forall_mem_cons] at h
    rw [runStmts]
    exact bind' (runStmt' s h.1) fun _ => runStmts' ss h.2

end

end Confined

/-! Two runs in either order. -/

section Commute

variable {seen' changed' : String → Prop} {x : Run α} {y : Run β}

/-- A run goes as it would have gone before another one that changes nothing it sees. -/
theorem Confined.unaffected (hx : Confined seen changed x) (hy : Confined seen' changed' y)
    (hdisjoint : ∀ name, changed name → ¬ seen' name) (m : Memory) :
    (y.run m).1 = (y.run (x.run m).2).1 ∧ Agree seen' (y.run m).2 (y.run (x.run m).2).2 :=
  hy.agree fun name hname => (hx.kept m name fun hchanged => hdisjoint name hchanged hname).symm

/-- Two runs can change places if neither of them changes what the other one sees. -/
theorem Confined.commute (hx : Confined seen changed x) (hy : Confined seen' changed' y)
    (hself : ∀ name, changed name → seen name) (hself' : ∀ name, changed' name → seen' name)
    (hdisjoint : ∀ name, changed name → ¬ seen' name)
    (hdisjoint' : ∀ name, changed' name → ¬ seen name) {m m₁ m₂ : Memory} {a : α} {b : β}
    (hfirst : x.run m = (.ok a, m₁)) (hsecond : y.run m₁ = (.ok b, m₂)) :
    ∃ l₁ l₂, y.run m = (.ok b, l₁) ∧ x.run l₁ = (.ok a, l₂) ∧ l₂.find? = m₂.find? := by
  obtain ⟨hearly, hl₁⟩ := hx.unaffected hy hdisjoint m
  obtain ⟨hlate, hl₂⟩ := hy.unaffected hx hdisjoint' m
  have hkept₁ := hx.kept m
  have hkept₂ := hy.kept m₁
  rw [hfirst] at hearly hl₁ hlate hl₂ hkept₁
  rw [hsecond] at hearly hl₁ hkept₂
  refine ⟨(y.run m).2, (x.run (y.run m).2).2, Prod.ext hearly rfl, Prod.ext hlate.symm rfl,
    funext fun name => ?_⟩
  -- a name that the first run changes is not changed by the second one, and the other way round
  by_cases hchanged : changed name
  · have hnot : ¬ changed' name := fun h => hdisjoint' name h (hself name hchanged)
    exact (hl₂ name (hself name hchanged)).symm.trans (hkept₂ name hnot).symm
  · refine (hx.kept _ name hchanged).trans ?_
    by_cases hchanged' : changed' name
    · exact hl₁ name (hself' name hchanged')
    · calc (y.run m).2.find? name = m.find? name := hy.kept m name hchanged'
        _ = m₁.find? name := (hkept₁ name hchanged).symm
        _ = m₂.find? name := (hkept₂ name hchanged').symm

end Commute

/-- A statement is confined to the names in its tree. -/
theorem confined_runStmt (s : Stmt) :
    Confined (fun name => name ∈ (Node.stmt s).changedNames ∨ name ∈ (Node.stmt s).readNames)
      (fun name => name ∈ (Node.stmt s).changedNames) (runStmt s) :=
  .runStmt' s ⟨fun _ h => .inr h, fun _ h => ⟨.inl h, h⟩⟩

/-- Statements that have nothing to do with each other can change places: if they run one
    after the other, they run in the other order as well, and what is found under each name
    in the end is the same. -/
theorem runStmt_commute {s t : Stmt} (h : Node.Independent (.stmt s) (.stmt t)) {m m₁ m₂ : Memory}
    (hs : (runStmt s).run m = (.ok (), m₁)) (ht : (runStmt t).run m₁ = (.ok (), m₂)) :
    ∃ l₁ l₂, (runStmt t).run m = (.ok (), l₁) ∧ (runStmt s).run l₁ = (.ok (), l₂) ∧
      ∀ name, l₂.find? name = m₂.find? name := by
  obtain ⟨l₁, l₂, hfirst, hsecond, hfound⟩ := (confined_runStmt s).commute (confined_runStmt t)
    (fun _ => .inl) (fun _ => .inl) (fun name hname => not_or.2 (h.left name hname))
    (fun name hname => not_or.2 (h.right name hname)) hs ht
  exact ⟨l₁, l₂, hfirst, hsecond, congrFun hfound⟩

/-- Two statements that read the same variable: a condition with an assignment below it, and
    an assignment to a name that is new. -/
theorem runStmt_commute_assignments :
    let use (name : String) : Expr := .reference (.plain name .zero) .zero
    let give (name : String) (value : Expr) : Stmt :=
      .expression (.assignment (.plain name .zero) value .zero) .zero
    let s : Stmt :=
      .conditional (.comparison .less (use "x") (.int 5 .zero) .zero) (give "y" (use "x")) .zero
    let t : Stmt := give "z" (.math .plus (use "x") (.int 1 .zero) .zero)
    let x : Variable := ⟨"x", "number", .int 3⟩
    let y : Variable := ⟨"y", "number", .int 3⟩
    let z : Variable := ⟨"z", "number", .int 4⟩
    let m : Memory := ⟨[("x", x)], ["x"]⟩
    let m₁ : Memory := ⟨[("y", y), ("x", x)], ["x", "y"]⟩
    let m₂ : Memory := ⟨[("z", z), ("y", y), ("x", x)], ["x", "y", "z"]⟩
    Node.Independent (.stmt s) (.stmt t) ∧ (runStmt s).run m = (.ok (), m₁) ∧
      (runStmt t).run m₁ = (.ok (), m₂) ∧
      ∃ l₁ l₂, (runStmt t).run m = (.ok (), l₁) ∧ (runStmt s).run l₁ = (.ok (), l₂) ∧
        ∀ name, l₂.find? name = m₂.find? name := by
  intro use give s t x y z m m₁ m₂
  have h : Node.Independent (.stmt s) (.stmt t) := by
    constructor <;> simp [s, t, give, use, Node.changedNames, Node.readNames, Node.preorder_eq,
      Node.children, Stmt.children, Expr.children, Reference.owner?, Reference.plain,
      Node.changedName?, Node.readName?, Node.target?, Reference.local?]
  have hs : (runStmt s).run m = (.ok (), m₁) := by rfl
  have ht : (runStmt t).run m₁ = (.ok (), m₂) := by rfl
  exact ⟨h, hs, ht, runStmt_commute h hs ht⟩

end Machine

end Prose
