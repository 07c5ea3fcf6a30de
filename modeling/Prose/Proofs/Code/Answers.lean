import Prose.Code.Convert
import Prose.Proofs.Tree.Formed

/- When a conversion gives code. A dialect has nothing to say for some nodes: comparisons
   that could not be read, and whatever else could not be read if the dialect keeps no trace
   of it. The conversion of a tree goes through it in preorder and stops at the first of
   these nodes; without such a node it gives code. -/
namespace Prose

namespace Dialect

variable (d : Dialect)

/-- Whether the dialect has nothing to say for a node. -/
def silentAt : Node → Bool
  | .stmt (.invalid ..) => d.unreadStatement.isNone
  | .expr (.invalid ..) => d.unreadCondition.isNone
  | .expr (.comparison op ..) => (Code.comparisonSign op).isNone
  | _ => false

/-- The nodes of a tree that the dialect has nothing to say for, in preorder. -/
def silence (n : Node) : List Node := n.preorder.filter d.silentAt

variable {d} {α β : Type} {x : Converted α} {f : α → Converted β} {ns ms : List Node}

theorem silence_eq (n : Node) :
    d.silence n = (if d.silentAt n then [n] else []) ++ n.children.flatMap d.silence := by
  rw [silence, Node.preorder_eq, List.filter_cons, List.filter_flatMap]
  split <;> rfl

/-- Where the dialect has something to say, it may still be silent further down. -/
theorem silence_below {n : Node} (h : d.silentAt n = false) :
    d.silence n = n.children.flatMap d.silence := by
  rw [silence_eq, h]
  rfl

theorem silence_child {n c : Node} (h : d.silentAt n = false) (hc : n.children = [c]) :
    d.silence n = d.silence c := by
  rw [silence_below h, hc, List.flatMap_singleton]

theorem silence_two {n c c' : Node} (h : d.silentAt n = false) (hc : n.children = [c, c']) :
    d.silence n = d.silence c ++ d.silence c' := by
  rw [silence_below h, hc, List.flatMap_cons, List.flatMap_singleton]

theorem silence_mention {n : Node} (h : n.isMention) : d.silence n = [] := by
  refine List.filter_eq_nil_iff.2 fun m hm => ?_
  have hmention := Node.forall_mem_preorder (Q := fun n => n.isMention)
    (fun _ _ => Node.isMention_of_mem_children) n h m hm
  cases m <;> simp_all [Node.isMention, silentAt]

theorem silence_reference (r : Reference) : d.silence (.reference r) = [] :=
  silence_mention rfl

theorem silence_mentions (h : ∀ n ∈ ns, n.isMention) : ns.flatMap d.silence = [] :=
  List.flatMap_eq_nil_iff.2 fun n hn => silence_mention (h n hn)

theorem silence_labels (labels : List Label) : (labels.map Node.label).flatMap d.silence = [] :=
  silence_mentions (List.forall_mem_map.2 fun _ _ => rfl)

theorem silence_references (rs : List Reference) :
    (rs.map Node.reference).flatMap d.silence = [] :=
  silence_mentions (List.forall_mem_map.2 fun _ _ => rfl)

/-! Conversions that stop at the first of some nodes. -/

/-- The conversion gives code if there are no nodes, and is refused at the first of them
    otherwise. -/
def Answers (d : Dialect) (x : Converted α) : List Node → Prop
  | [] => ∃ a, x = .ok a
  | n :: _ => x = d.refuse n.kindName

theorem answers_ok (a : α) : d.Answers (.ok a) [] := ⟨a, rfl⟩

theorem Answers.bind (hx : d.Answers x ns) (hf : ∀ a, d.Answers (f a) ms) :
    d.Answers (x >>= f) (ns ++ ms) := by
  cases ns with
  | nil =>
    obtain ⟨a, rfl⟩ := hx
    exact hf a
  | cons n ns =>
    have hx : x = d.refuse n.kindName := hx
    rw [hx]
    rfl

/-- What is done with the code does not refuse anything. -/
theorem Answers.map (hx : d.Answers x ns) (f : α → β) :
    d.Answers (x >>= fun a => .ok (f a)) ns := by
  have hbind := hx.bind fun a => answers_ok (d := d) (f a)
  rwa [List.append_nil] at hbind

/-- What the dialect has no word for is refused there and then; what it has a word for is
    converted with its parts. -/
theorem answers_node {n : Node} {word : Option β} (hword : d.silentAt n = word.isNone)
    (hnone : word = none → x = d.refuse n.kindName)
    (hsome : ∀ b, word = some b → d.Answers x (n.children.flatMap d.silence)) :
    d.Answers x (d.silence n) := by
  cases word with
  | none =>
    rw [silence_eq, hword]
    exact hnone rfl
  | some b =>
    rw [silence_below hword]
    exact hsome b rfl

/-! Expressions. -/

mutual

/-- Every expression is converted in preorder. -/
theorem answers_expr (e : Expr) : d.Answers (d.expr e) (d.silence (.expr e)) := by
  cases e with
  | int | text | bytes | ratio | null =>
    rw [silence_below rfl]
    exact answers_ok _
  | reference name =>
    rw [silence_child rfl rfl, silence_reference]
    exact answers_ok _
  | inches value =>
    rw [silence_child rfl rfl]
    exact answers_expr value
  | possessive slot owner =>
    rw [silence_two rfl rfl, silence_reference, List.append_nil]
    exact (answers_expr owner).map _
  | assignment target value | update inPlace op value target =>
    rw [silence_two rfl rfl, silence_reference, List.nil_append]
    exact (answers_expr value).map _
  | math op first second =>
    rw [silence_two rfl rfl]
    exact (answers_expr first).bind fun _ => (answers_expr second).map _
  | comparison op first second =>
    refine answers_node rfl (fun hsign => by rw [expr, hsign]; rfl) fun sign hsign => ?_
    rw [expr, hsign]
    simp only [Node.children, Expr.children, List.flatMap_cons, List.flatMap_nil, List.append_nil]
    exact (answers_expr first).bind fun _ => (answers_expr second).map _
  | invocation marker parameters =>
    rw [silence_below rfl, Node.children, Expr.children, List.flatMap_map]
    exact (answers_exprs parameters).map _
  | invalid =>
    refine answers_node rfl (fun hkeep => by rw [expr, hkeep]; rfl) fun keep hkeep => ?_
    rw [expr, hkeep]
    exact answers_ok _

theorem answers_exprs (es : List Expr) :
    d.Answers (d.exprs es) (es.flatMap fun e => d.silence (.expr e)) := by
  cases es with
  | nil => exact answers_ok _
  | cons e es =>
    rw [List.flatMap_cons, exprs]
    exact (answers_expr e).bind fun _ => (answers_exprs es).map _

end

/-! Statements. -/

theorem answers_variableDeclaration (v : VariableDeclaration) :
    d.Answers (d.variableDeclaration v) (d.silence (.variableDeclaration v)) := by
  rw [silence_below rfl, Node.children, List.flatMap_cons, silence_mention (n := .typeName v.type) rfl,
    variableDeclaration]
  cases v.initializer with
  | none => exact answers_ok _
  | some e =>
    rw [List.nil_append, Option.toList_some, List.map_singleton, List.flatMap_singleton]
    exact (answers_expr e).map _

/-- The dialect can write every literal as a constant. -/
def WritesConstants (d : Dialect) : Prop := ∀ e : Expr, e.Literal → (d.constantType e).isSome

theorem answers_constant (hd : d.WritesConstants) {value : Expr} (h : value.Literal)
    (name : Reference) (tail : String) :
    d.Answers (d.constant name value tail) (d.silence (.expr value)) := by
  rw [constant]
  obtain ⟨type, htype⟩ := Option.isSome_iff_exists.1 (hd value h)
  rw [htype]
  exact (answers_expr value).map _

mutual

/-- Every formed statement is converted in preorder. -/
theorem answers_stmt (hd : d.WritesConstants) (s : Stmt) (h : s.Formed) :
    d.Answers (d.stmt s) (d.silence (.stmt s)) := by
  cases s with
  | block body =>
    cases h with
    | block hbody =>
      rw [silence_below rfl, Node.children, Stmt.children, List.flatMap_map]
      exact answers_stmts hd body hbody
  | paragraph statements label =>
    cases h with
    | paragraph hstatements =>
      rw [silence_below rfl, Node.children, Stmt.children, List.flatMap_append, silence_labels,
        List.flatMap_map]
      exact (answers_stmts hd statements hstatements).map _
  | variableDeclaration declaration =>
    rw [silence_child rfl rfl]
    exact (answers_variableDeclaration declaration).map _
  | shapeDeclaration shape =>
    rw [silence_child rfl rfl, silence_mention (n := .shape shape) rfl]
    exact answers_ok _
  | constantDeclaration name value =>
    cases h with
    | constantDeclaration hvalue =>
      rw [silence_two rfl rfl, silence_reference, List.nil_append]
      exact answers_constant hd hvalue name ""
  | unitAlias name value base =>
    cases h with
    | unitAlias =>
      rw [silence_below rfl]
      simp only [Node.children, Stmt.children, List.flatMap_cons, List.flatMap_nil,
        silence_reference, List.nil_append, List.append_nil]
      exact answers_constant hd .int name _
  | pointerDeclaration pointer base =>
    rw [silence_two rfl rfl, silence_reference, silence_mention (n := .typeName base) rfl]
    exact answers_ok _
  | expression value =>
    rw [silence_child rfl rfl]
    exact (answers_expr value).map _
  | conditional condition branch =>
    cases h with
    | conditional _ hbranch =>
      rw [silence_two rfl rfl]
      exact (answers_expr condition).bind fun _ => (answers_stmt hd branch hbranch).map _
  | result value =>
    rw [silence_child rfl rfl]
    exact (answers_expr value).map _
  | invocation marker parameters target =>
    rw [silence_below rfl, Node.children, Stmt.children, List.flatMap_append, silence_references,
      silence_references]
    exact answers_ok _
  | labeled label body =>
    cases h with
    | labeled hbody =>
      rw [silence_two rfl rfl, silence_mention (n := .label label) rfl, List.nil_append]
      exact (answers_stmt hd body hbody).map _
  | invalid =>
    refine answers_node rfl (fun hkeep => by rw [stmt, hkeep]; rfl) fun keep hkeep => ?_
    rw [stmt, hkeep]
    exact answers_ok _

theorem answers_stmts (hd : d.WritesConstants) (ss : List Stmt) (h : ∀ s ∈ ss, s.Formed) :
    d.Answers (d.stmts ss) (ss.flatMap fun s => d.silence (.stmt s)) := by
  cases ss with
  | nil => exact answers_ok _
  | cons s ss =>
    rw [List.forall_mem_cons] at h
    rw [List.flatMap_cons, stmts]
    exact (answers_stmt hd s h.1).bind fun _ => (answers_stmts hd ss h.2).map _

end

/-! Documents, and whatever else a text is read as. -/

theorem answers_paragraph (hd : d.WritesConstants) (p : Paragraph)
    (h : ∀ s ∈ p.statements, s.Formed) :
    d.Answers (d.paragraph p) (d.silence (.paragraph p)) := by
  rw [silence_below rfl, Node.children, Paragraph.children, List.flatMap_append, silence_labels,
    List.flatMap_map]
  exact (answers_stmts hd p.statements h).map _

theorem answers_paragraphs (hd : d.WritesConstants) (ps : List Paragraph)
    (h : ∀ p ∈ ps, ∀ s ∈ p.statements, s.Formed) :
    d.Answers (ps.mapM d.paragraph) (ps.flatMap fun p => d.silence (.paragraph p)) := by
  induction ps with
  | nil => exact answers_ok _
  | cons p ps ih =>
    rw [List.forall_mem_cons] at h
    rw [List.mapM_cons, List.flatMap_cons]
    exact (answers_paragraph hd p h.1).bind fun _ => (ih h.2).map _

theorem answers_document (hd : d.WritesConstants) (n : Document) (h : n.Formed) :
    d.Answers (d.document n) (d.silence (.document n)) := by
  rw [silence_below rfl, Node.children, List.flatMap_map]
  exact (answers_paragraphs hd n.paragraphs h).map _

/-- Whatever a text is read as is converted in preorder. -/
theorem answers_root (hd : d.WritesConstants) {n : Node} (h : n.Root) :
    d.Answers (d.node n) (d.silence n) := by
  cases h with
  | @document n h => exact (answers_document hd n h).map _
  | @stmt s h => exact (answers_stmt hd s h).map _
  | @value e | @action e => exact answers_expr e
  | @declaration v => exact answers_variableDeclaration v
  | @reference r =>
    rw [silence_reference]
    exact answers_ok _

end Dialect

end Prose
