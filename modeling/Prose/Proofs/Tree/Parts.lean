import Prose.Proofs.Tree.Preorder

/- What all parts of a tree have in common. Most properties of nodes that matter say something of
   references, or of expressions that join two parts by a sign, and nothing of other nodes. A
   tree has such a property everywhere if its root has it and the trees below it have. -/
namespace Prose

/-- Whether two parts of an expression are joined by a sign: an operation on numbers, or a slot
    of a literal. -/
def Expr.isJoined : Expr → Bool
  | math .. | possessive .. => true
  | _ => false

namespace Node

variable {Q : Node → Prop} {n : Node}

/-- Whether a node neither uses a name nor joins parts of an expression. -/
def isPlain : Node → Bool
  | reference _ => false
  | expr e => !e.isJoined
  | _ => true

/-- All nodes of a tree have a property. -/
def Everywhere (Q : Node → Prop) (n : Node) : Prop := ∀ m ∈ n.preorder, Q m

theorem everywhere_of_children (hn : Q n) (h : ∀ c ∈ n.children, c.Everywhere Q) : n.Everywhere Q := by
  rw [Everywhere, preorder_eq]
  exact List.forall_mem_cons.2 ⟨hn, List.forall_mem_flatMap.2 h⟩

theorem Everywhere.of_mem_children {c : Node} (h : n.Everywhere Q) (hc : c ∈ n.children) :
    c.Everywhere Q :=
  fun m hm => h m (preorder_subset hc hm)

theorem everywhere_leaf (hn : Q n) (hchildren : n.children = []) : n.Everywhere Q := by
  refine everywhere_of_children hn ?_
  rw [hchildren]
  exact nofun

theorem everywhere_single {a : Node} (hn : Q n) (hchildren : n.children = [a]) (ha : a.Everywhere Q) :
    n.Everywhere Q := by
  refine everywhere_of_children hn ?_
  rw [hchildren]
  exact List.forall_mem_singleton.2 ha

theorem everywhere_pair {a b : Node} (hn : Q n) (hchildren : n.children = [a, b])
    (ha : a.Everywhere Q) (hb : b.Everywhere Q) : n.Everywhere Q := by
  refine everywhere_of_children hn ?_
  rw [hchildren]
  exact List.forall_mem_cons.2 ⟨ha, List.forall_mem_singleton.2 hb⟩

/-- A name that nothing owns. -/
theorem everywhere_unowned {r : Reference} (hr : Q (.reference r)) (h : r.owners = []) :
    (reference r).Everywhere Q := by
  refine everywhere_leaf hr ?_
  rw [children, Reference.owner?, h]
  rfl

section Plain

variable (hplain : ∀ n, n.isPlain = true → Q n)
include hplain

/-- A shape mentions types and slots only. -/
theorem everywhere_shape {s : Shape} {span : Span} :
    (stmt (.shapeDeclaration s span)).Everywhere Q := by
  refine everywhere_single (hplain _ rfl) rfl (everywhere_of_children (hplain _ rfl) ?_)
  refine List.forall_mem_append.2 ⟨?_, ?_⟩
  · exact List.forall_mem_map.2 fun t _ => everywhere_leaf (hplain _ rfl) rfl
  · exact List.forall_mem_map.2 fun s _ => everywhere_leaf (hplain _ rfl) rfl

theorem everywhere_variableDeclaration {d : VariableDeclaration}
    (h : ∀ e ∈ d.initializer.toList, (expr e).Everywhere Q) :
    (variableDeclaration d).Everywhere Q := by
  refine everywhere_of_children (hplain _ rfl) ?_
  exact List.forall_mem_cons.2 ⟨everywhere_leaf (hplain _ rfl) rfl, List.forall_mem_map.2 h⟩

theorem everywhere_noBody (l : Label) : (stmt (.noBody l)).Everywhere Q :=
  everywhere_leaf (hplain _ rfl) rfl

theorem everywhere_ofUnread (ts : List Token) : (stmt (.ofUnread ts)).Everywhere Q :=
  everywhere_leaf (hplain _ rfl) rfl

theorem everywhere_underHeader {l : Label} {s : Stmt} (hl : (label l).Everywhere Q)
    (hs : (stmt s).Everywhere Q) : (stmt (.underHeader l s)).Everywhere Q :=
  everywhere_pair (hplain _ rfl) rfl hl hs

end Plain

/-! References of a tree. Owners are references of their own: the nearest owner of a use of a name
    is below it, with the owners above. -/

section References

variable {Q Q' : Reference → Prop} {r : Reference}

/-- All references in a tree, owners among them, have a property. -/
def UsesOnly (Q : Reference → Prop) (n : Node) : Prop := ∀ r, .reference r ∈ n.preorder → Q r

theorem UsesOnly.mono (h : n.UsesOnly Q) (himp : ∀ r, Q r → Q' r) : n.UsesOnly Q' :=
  fun r hr => himp r (h r hr)

theorem usesOnly_iff_everywhere : n.UsesOnly Q ↔ n.Everywhere fun m => ∀ r, m = .reference r → Q r :=
  ⟨fun h _ hm r hr => h r (hr ▸ hm), fun h r hr => h (.reference r) hr r rfl⟩

/-- A reference and its owners. -/
theorem usesOnly_reference (hr : Q r) (howner : ∀ o ∈ r.owner?, (reference o).UsesOnly Q) :
    (reference r).UsesOnly Q := by
  refine usesOnly_iff_everywhere.2 (everywhere_of_children (fun s hs => reference.inj hs ▸ hr) ?_)
  exact List.forall_mem_map.2 fun o ho => usesOnly_iff_everywhere.1 (howner o (Option.mem_toList.1 ho))

/-- A name that nothing owns. -/
theorem usesOnly_unowned (hr : Q r) (h : r.owners = []) : (reference r).UsesOnly Q := by
  refine usesOnly_reference hr fun o ho => ?_
  rw [Reference.owner?, h] at ho
  cases ho

end References

end Node

end Prose
