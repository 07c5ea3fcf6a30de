import Prose.Tree.Node

/- The preorder of a tree: a node, and then what is below it, child by child. What is true of
   a node, and passes on from every node to its children, is true of all of its tree. -/
namespace Prose.Node

variable {n m c : Node}

/-- The depth at which a walk starts has no influence on where it goes. -/
theorem map_snd_preorderFrom (depth : Nat) (n : Node) :
    (n.preorderFrom depth).map Prod.snd = n.preorder := by
  rw [preorder]
  -- on the walk; below the node it is one level deeper in both cases
  generalize 0 = other
  fun_induction preorderFrom depth n generalizing other with
  | case1 depth n ih =>
    rw [preorderFrom.eq_1 other]
    simp only [List.map_cons, List.map_flatMap, List.cons.injEq, true_and]
    exact congrArg List.flatten (List.map_congr_left fun c _ => ih c (other + 1))

theorem preorder_eq (n : Node) : n.preorder = n :: n.children.flatMap preorder := by
  rw [preorder, preorderFrom, List.map_cons, List.map_flatMap]
  simp only [map_snd_preorderFrom]
  rw [List.flatMap_subtype (g := preorder) fun _ _ => rfl, List.unattach_attach]

theorem self_mem_preorder (n : Node) : n ∈ n.preorder := by
  rw [preorder_eq]
  exact List.mem_cons_self

/-- What is below a child is below the node. -/
theorem preorder_subset (h : c ∈ n.children) : c.preorder ⊆ n.preorder := by
  intro m hm
  rw [preorder_eq n]
  exact List.mem_cons_of_mem _ (List.mem_flatMap.2 ⟨c, h, hm⟩)

theorem mem_preorder_of_mem_children (h : c ∈ n.children) : c ∈ n.preorder :=
  preorder_subset h (self_mem_preorder c)

/-- What passes on from every node to its children is true of all of the tree. -/
theorem forall_mem_preorder {Q : Node → Prop} (hpass : ∀ n c, Q n → c ∈ n.children → Q c)
    (n : Node) (h : Q n) : ∀ m ∈ n.preorder, Q m := by
  rw [preorder_eq]
  refine List.forall_mem_cons.2 ⟨h, List.forall_mem_flatMap.2 fun c hc => ?_⟩
  exact forall_mem_preorder hpass c (hpass n c h hc)
termination_by n.weight
decreasing_by exact weight_lt_of_mem_children hc

/-- A name, a type, a slot, a shape or a header: what has nothing but names in it. -/
def isMention : Node → Bool
  | reference _ | label _ | shape _ | typeName _ | slot _ => true
  | _ => false

theorem isMention_of_mem_children (h : n.isMention) (hc : c ∈ n.children) : c.isMention := by
  cases n with
  | reference r =>
    obtain ⟨_, -, rfl⟩ := List.mem_map.1 hc
    rfl
  | label | shape =>
    rcases List.mem_append.1 hc with hc | hc
    all_goals
      obtain ⟨_, -, rfl⟩ := List.mem_map.1 hc
      rfl
  | typeName | slot => exact absurd hc List.not_mem_nil
  | document | paragraph | stmt | expr | variableDeclaration => cases h

end Prose.Node
