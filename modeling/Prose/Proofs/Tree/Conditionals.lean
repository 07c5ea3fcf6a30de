import Prose.Proofs.Tree.Preorder

/- How many `if` statements stand above each other. A way down a tree goes from every node
   to one that stands directly below it, through branches, blocks and the bodies of headers
   alike. A tree is as shallow as the way that meets the most `if` statements. -/
namespace Prose.Node

/-- An `if` statement. -/
def isConditional : Node → Bool
  | stmt (.conditional ..) => true
  | _ => false

/-- Nodes that may have statements below them, or are statements. -/
def hasStatements : Node → Bool
  | document _ | paragraph _ | stmt _ => true
  | _ => false

/-- A way down from a node: every node on it stands directly below the one before. -/
inductive Way : Node → List Node → Prop where
  | stop {n : Node} : Way n []
  | down {n c : Node} {below : List Node} (hc : c ∈ n.children) (h : Way c below) :
      Way n (c :: below)

/-- No way down from a node meets more than `room` `if` statements, the node included. -/
def Shallow (room : Nat) (n : Node) : Prop :=
  ∀ path, n.Way path → (n :: path).countP isConditional ≤ room

variable {room : Nat} {n c : Node}

theorem Shallow.mono {more : Nat} (h : n.Shallow room) (hle : room ≤ more) : n.Shallow more :=
  fun path hpath => Nat.le_trans (h path hpath) hle

/-- A node adds to the ways below it what it is itself. -/
theorem shallow_add (h : ∀ c ∈ n.children, c.Shallow room) :
    n.Shallow (room + [n].countP isConditional) := by
  intro path hpath
  rw [← List.singleton_append, List.countP_append, Nat.add_comm room]
  apply Nat.add_le_add_left
  cases hpath with
  | stop => exact Nat.zero_le room
  | down hc hbelow => exact h _ hc _ hbelow

/-- What is no `if` statement is as shallow as the trees below it. -/
theorem shallow_of_children (hn : n.isConditional = false)
    (h : ∀ c ∈ n.children, c.Shallow room) : n.Shallow room := by
  have hcount : [n].countP isConditional = 0 := by
    rw [List.countP_singleton, hn]
    rfl
  have hshallow := shallow_add h
  rwa [hcount] at hshallow

/-- Nothing but a document, a paragraph or a statement has statements below it. -/
theorem hasStatements_of_mem_children (hn : n.hasStatements = false) (hc : c ∈ n.children) :
    c.hasStatements = false := by
  cases n with
  | document | paragraph | stmt => cases hn
  | expr e =>
    cases e <;> simp only [children, Expr.children, List.mem_cons, List.mem_map, List.not_mem_nil] at hc <;>
      grind [hasStatements]
  | variableDeclaration | shape | label =>
    simp only [children, List.mem_cons, List.mem_append, List.mem_map] at hc
    grind [hasStatements]
  | reference =>
    obtain ⟨o, -, rfl⟩ := List.mem_map.1 hc
    rfl
  | slot | typeName => cases hc

theorem isConditional_of_hasStatements (hn : n.hasStatements = false) : n.isConditional = false := by
  cases n with
  | stmt => cases hn
  | _ => rfl

/-- Where there are no statements, there is no `if` statement. -/
theorem shallow_of_hasStatements (hn : n.hasStatements = false) : n.Shallow 0 := by
  intro path hpath
  -- on the way down, which never gets to a statement
  induction hpath with
  | stop => simp [isConditional_of_hasStatements hn]
  | down hc hbelow ih =>
    rw [List.countP_cons_of_neg (by simp [isConditional_of_hasStatements hn])]
    exact ih (hasStatements_of_mem_children hn hc)

/-! Statements. -/

/-- A statement without a statement directly below it. -/
theorem shallow_plain {s : Stmt} (hs : (stmt s).isConditional = false)
    (h : ∀ c ∈ s.children, c.hasStatements = false) : (stmt s).Shallow room :=
  shallow_of_children hs fun c hc => (shallow_of_hasStatements (h c hc)).mono (Nat.zero_le room)

/-- An `if` statement takes one level more than its branch. -/
theorem shallow_conditional {test : Expr} {branch : Stmt} {span : Span}
    (h : (stmt branch).Shallow room) : (stmt (.conditional test branch span)).Shallow (room + 1) := by
  apply shallow_add
  refine List.forall_mem_cons.2 ⟨?_, List.forall_mem_singleton.2 h⟩
  exact (shallow_of_hasStatements rfl).mono (Nat.zero_le room)

theorem shallow_block {body : List Stmt} {span : Span} (h : ∀ s ∈ body, (stmt s).Shallow room) :
    (stmt (.block body span)).Shallow room :=
  shallow_of_children rfl (List.forall_mem_map.2 h)

/-- A header takes no level. -/
theorem shallow_underHeader {l : Label} {body : Stmt} (h : (stmt body).Shallow room) :
    (stmt (.underHeader l body)).Shallow room := by
  apply shallow_of_children rfl
  refine List.forall_mem_cons.2 ⟨?_, List.forall_mem_singleton.2 h⟩
  exact (shallow_of_hasStatements rfl).mono (Nat.zero_le room)

theorem shallow_noBody (l : Label) : (stmt (.noBody l)).Shallow room :=
  shallow_block nofun

theorem shallow_ofUnread (ts : List Token) : (stmt (.ofUnread ts)).Shallow room :=
  shallow_plain rfl nofun

/-! Paragraphs and documents. -/

theorem shallow_paragraph {p : Paragraph} (h : ∀ s ∈ p.statements, (stmt s).Shallow room) :
    (paragraph p).Shallow room := by
  apply shallow_of_children rfl
  refine List.forall_mem_append.2 ⟨List.forall_mem_map.2 fun l _ => ?_, List.forall_mem_map.2 h⟩
  exact (shallow_of_hasStatements rfl).mono (Nat.zero_le room)

theorem shallow_document {d : Document} (h : ∀ p ∈ d.paragraphs, (paragraph p).Shallow room) :
    (document d).Shallow room :=
  shallow_of_children rfl (List.forall_mem_map.2 h)

end Prose.Node
