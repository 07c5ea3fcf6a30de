import Prose.Proofs.Tree.Conditionals
import Prose.Proofs.Tree.Nested

/- The invalid statements of a tree, in the order of the text. They are the ones that a walk
   in preorder meets, whatever still waits to be looked at. In a well-nested tree whose
   statements stand one behind the other below every node, so do all invalid statements. -/
namespace Prose

variable {P : Nat → Prop}

/-- Significant tokens one behind the other, of which none is empty. -/
structure Token.Filled (P : Nat → Prop) (ts : List Token) : Prop where
  laid : Laid P ts
  significant : ∀ t ∈ ts, t.isSignificant
  nonempty : ∀ t ∈ ts, t.start < t.stop

theorem Token.Filled.sublist {ts us : List Token} (h : Filled P ts) (hsub : us.Sublist ts) :
    Filled P us where
  laid := h.laid.sublist hsub
  significant t ht := h.significant t (hsub.subset ht)
  nonempty t ht := h.nonempty t (hsub.subset ht)

namespace Node

variable {n : Node} {s : Stmt} {l : Label}

/-! What a walk meets. -/

/-- The invalid statement that a node is, if it is one. -/
def invalid? : Node → Option Stmt
  | stmt (.invalid tokens span) => some (.invalid tokens span)
  | _ => none

/-- The invalid statements in the preorder of a tree. -/
def invalids (n : Node) : List Stmt := n.preorder.filterMap invalid?

theorem invalids_eq (n : Node) : n.invalids = n.invalid?.toList ++ n.children.flatMap invalids := by
  rw [invalids, preorder_eq, List.filterMap_cons, List.filterMap_flatMap]
  cases n.invalid? <;> rfl

theorem invalid?_eq_none (hn : ∀ tokens span, n ≠ stmt (.invalid tokens span)) :
    n.invalid? = none := by
  unfold invalid?
  split
  · exact absurd rfl (hn _ _)
  · rfl

/-- The nodes that wait are looked at one after the other, each with all that is below it. -/
theorem invalidAmong_eq (pending : List Node) :
    invalidAmong pending = pending.flatMap invalids := by
  fun_induction invalidAmong pending with
  | case1 => rfl
  | case2 pending tokens span later ih =>
    rw [List.flatMap_cons, invalids_eq]
    exact congrArg (Stmt.invalid tokens span :: ·) ih
  | case3 n pending later hn ih =>
    have hnone : n.invalid? = none := invalid?_eq_none fun tokens span => hn tokens span
    rw [List.flatMap_cons, invalids_eq, hnone, Option.toList_none, List.nil_append,
      ← List.flatMap_append]
    exact ih

theorem eq_of_mem_invalid? (h : s ∈ n.invalid?) : n = stmt s := by
  unfold invalid? at h
  split at h
  · rw [Option.some.inj h]
  · cases h

theorem mem_invalids (h : s ∈ n.invalids) : stmt s ∈ n.preorder := by
  obtain ⟨m, hm, hs⟩ := List.mem_filterMap.1 h
  exact eq_of_mem_invalid? hs ▸ hm

theorem hasStatements_of_mem_invalids (h : s ∈ n.invalids) : n.hasStatements = true := by
  cases hn : n.hasStatements with
  | true => rfl
  | false =>
    have hnone := forall_mem_preorder (fun _ _ => hasStatements_of_mem_children) n hn
    cases hnone _ (mem_invalids h)

/-! Trees in order. -/

/-- A tree in which what has statements stands one behind the other below every node, and in
    which no invalid statement is empty. -/
inductive InOrder : Node → Prop where
  | intro {n : Node} (nonempty : ∀ s ∈ n.invalid?, s.span.start < s.span.stop)
      (apart : n.children.Pairwise fun a b =>
        a.hasStatements → b.hasStatements → a.span.stop ≤ b.span.start)
      (below : ∀ c ∈ n.children, c.hasStatements → InOrder c) : InOrder n

theorem InOrder.nonempty (h : n.InOrder) : ∀ s ∈ n.invalids, s.span.start < s.span.stop := by
  induction h with
  | @intro n nonempty apart below ih =>
    rw [invalids_eq, List.forall_mem_append]
    refine ⟨fun s hs => nonempty s (Option.mem_toList.1 hs), List.forall_mem_flatMap.2 ?_⟩
    exact fun c hc s hs => ih c hc (hasStatements_of_mem_invalids hs) s hs

/-! How trees in order are built. -/

theorem inOrder_of_children (hn : n.invalid? = none)
    (apart : n.children.Pairwise fun a b =>
      a.hasStatements → b.hasStatements → a.span.stop ≤ b.span.start)
    (below : ∀ c ∈ n.children, c.hasStatements → c.InOrder) : n.InOrder :=
  .intro (fun s hs => absurd hs (hn ▸ Option.not_mem_none s)) apart below

/-- A statement without a statement directly below it. -/
theorem inOrder_plain (hs : (stmt s).invalid? = none)
    (h : ∀ c ∈ s.children, c.hasStatements = false) : (stmt s).InOrder := by
  have hnone {c : Node} (hc : c ∈ s.children) : ¬ c.hasStatements := by simp [h c hc]
  refine inOrder_of_children hs ?_ fun c hc hstatements => absurd hstatements (hnone hc)
  exact List.pairwise_iff_forall_sublist.2 fun hsub hstatements =>
    absurd hstatements (hnone (hsub.subset List.mem_cons_self))

theorem inOrder_conditional {test : Expr} {span : Span} (h : (stmt s).InOrder) :
    (stmt (.conditional test s span)).InOrder := by
  refine inOrder_of_children rfl ?_ ?_
  · simp [children, Stmt.children, hasStatements]
  · simp [children, Stmt.children, hasStatements, h]

theorem inOrder_underHeader (h : (stmt s).InOrder) : (stmt (.underHeader l s)).InOrder := by
  refine inOrder_of_children rfl ?_ ?_
  · simp [children, Stmt.children, Stmt.underHeader, hasStatements]
  · simp [children, Stmt.children, Stmt.underHeader, hasStatements, h]

theorem inOrder_noBody (l : Label) : (stmt (.noBody l)).InOrder := inOrder_plain rfl nofun

/-- Significant tokens that nothing could read, of which none is empty. -/
theorem inOrder_ofUnread {ts : List Token} (hne : ts ≠ []) (hts : Token.Filled P ts) :
    (stmt (.ofUnread ts)).InOrder := by
  refine .intro (fun s hs => ?_) .nil nofun
  obtain rfl := stmt.inj (eq_of_mem_invalid? hs)
  have hspan : (Stmt.ofUnread ts).span = .ofTokens ts :=
    congrArg Span.ofTokens (List.filter_eq_self.2 hts.significant)
  have hhead := List.head_mem hne
  rw [hspan, Span.ofTokens_eq hne]
  exact Nat.lt_of_lt_of_le (hts.nonempty _ hhead) (hts.laid.le_stop hne hhead)

theorem inOrder_block {body : List Stmt} {span : Span}
    (apart : body.Pairwise fun s t => s.span.stop ≤ t.span.start)
    (below : ∀ s ∈ body, (stmt s).InOrder) : (stmt (.block body span)).InOrder :=
  inOrder_of_children rfl (List.pairwise_map.2 (apart.imp fun hle _ _ => hle))
    (List.forall_mem_map.2 fun s hs _ => below s hs)

theorem inOrder_paragraph {p : Paragraph}
    (apart : p.statements.Pairwise fun s t => s.span.stop ≤ t.span.start)
    (below : ∀ s ∈ p.statements, (stmt s).InOrder) : (paragraph p).InOrder := by
  refine inOrder_of_children rfl ?_ ?_
  · -- a label in front of the statements has none of its own
    refine List.pairwise_append.2 ⟨?_, List.pairwise_map.2 (apart.imp fun hle _ _ => hle), ?_⟩
    · cases p.label <;> simp
    · exact List.forall_mem_map.2 fun l _ _ _ hlabel => absurd hlabel nofun
  · exact List.forall_mem_append.2 ⟨List.forall_mem_map.2 fun l _ hlabel => absurd hlabel nofun,
      List.forall_mem_map.2 fun s hs _ => below s hs⟩

theorem inOrder_document {d : Document}
    (apart : d.paragraphs.Pairwise fun p q => p.span.stop ≤ q.span.start)
    (below : ∀ p ∈ d.paragraphs, (paragraph p).InOrder) : (document d).InOrder :=
  inOrder_of_children rfl (List.pairwise_map.2 (apart.imp fun hle _ _ => hle))
    (List.forall_mem_map.2 fun p hp _ => below p hp)

/-- Nothing in a well-nested tree reaches out of it. -/
theorem Nested.within_of_mem_preorder (h : n.Nested P) {m : Node} (hm : m ∈ n.preorder) :
    m.span.Within n.span := by
  induction h with
  | @intro n sits within inOrder below ih =>
    rw [preorder_eq] at hm
    rcases List.mem_cons.1 hm with rfl | hm
    · exact .refl _
    · obtain ⟨c, hc, hm⟩ := List.mem_flatMap.1 hm
      exact (ih c hc hm).trans (within c hc)

/-- Where a tree is in order and well nested, its invalid statements stand one behind the
    other. -/
theorem InOrder.pairwise_invalids (h : n.InOrder) (hnested : n.Nested P) :
    n.invalids.Pairwise fun s t => s.span.stop ≤ t.span.start := by
  induction h with
  | @intro n nonempty apart below ih =>
    rw [invalids_eq]
    cases hself : n.invalid? with
    | some s =>
      -- nothing stands below an invalid statement
      have hchildren : n.children = [] := by
        unfold invalid? at hself
        split at hself
        · rfl
        · cases hself
      rw [hchildren]
      exact List.pairwise_singleton ..
    | none =>
      rw [Option.toList_none, List.nil_append, List.pairwise_flatMap]
      refine ⟨fun c hc => ?_, apart.imp_of_mem fun {a b} ha hb hab s hs t ht => ?_⟩
      · cases hinvalids : c.invalids with
        | nil => exact .nil
        | cons s ss =>
          have hs : s ∈ c.invalids := hinvalids ▸ List.mem_cons_self
          rw [← hinvalids]
          exact ih c hc (hasStatements_of_mem_invalids hs) (hnested.of_mem_children hc).1
      · have hbefore := hab (hasStatements_of_mem_invalids hs) (hasStatements_of_mem_invalids ht)
        have hs' := (hnested.of_mem_children ha).1.within_of_mem_preorder (mem_invalids hs)
        have ht' := (hnested.of_mem_children hb).1.within_of_mem_preorder (mem_invalids ht)
        exact Nat.le_trans hs'.2 (Nat.le_trans hbefore ht'.1)

end Node

end Prose
