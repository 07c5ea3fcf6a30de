import Prose.Proofs.Grammar.Derivation
import Prose.Tree.Node

/- Well-nested trees. Every span starts before it stops, both at places where a span may
   end, and no node reaches out of the one above it. Trees grow from tokens that stand one
   behind the other: what covers some of them and has its parts among them is well nested
   if its parts are. -/
namespace Prose

variable {P : Nat → Prop}

/-! Spans. -/

namespace Span

/-- The span starts before it stops, at places where spans may end. -/
def Sits (P : Nat → Prop) (s : Span) : Prop := s.start ≤ s.stop ∧ P s.start ∧ P s.stop

/-- The first span does not reach out of the second. -/
def Within (s t : Span) : Prop := t.start ≤ s.start ∧ s.stop ≤ t.stop

variable {s t u : Span}

theorem Within.refl (s : Span) : s.Within s := ⟨Nat.le_refl _, Nat.le_refl _⟩

theorem Within.trans (h : s.Within t) (h' : t.Within u) : s.Within u :=
  ⟨Nat.le_trans h'.1 h.1, Nat.le_trans h.2 h'.2⟩

theorem within_cover_left (s t : Span) : s.Within (s.cover t) :=
  ⟨Nat.min_le_left .., Nat.le_max_left ..⟩

theorem within_cover_right (s t : Span) : t.Within (s.cover t) :=
  ⟨Nat.min_le_right .., Nat.le_max_right ..⟩

theorem Within.cover (hs : s.Within u) (ht : t.Within u) : (s.cover t).Within u :=
  ⟨Nat.le_min.2 ⟨hs.1, ht.1⟩, Nat.max_le.2 ⟨hs.2, ht.2⟩⟩

theorem Sits.cover (hs : s.Sits P) (ht : t.Sits P) : (s.cover t).Sits P := by
  have hstart : min s.start t.start = s.start ∨ min s.start t.start = t.start := by omega
  have hstop : max s.stop t.stop = s.stop ∨ max s.stop t.stop = t.stop := by omega
  refine ⟨?_, ?_, ?_⟩
  · have := hs.1
    simp only [Span.cover]
    omega
  · rcases hstart with h | h <;> simp only [Span.cover, h]
    · exact hs.2.1
    · exact ht.2.1
  · rcases hstop with h | h <;> simp only [Span.cover, h]
    · exact hs.2.2
    · exact ht.2.2

/-- The span begins at the first of two of the tokens or later and does not go on behind
    the other. -/
def HeldBy (ts : List Token) (s : Span) : Prop :=
  ∃ first ∈ ts, ∃ last ∈ ts, first.start ≤ s.start ∧ s.stop ≤ last.stop

variable {ts us : List Token}

theorem HeldBy.mono (h : s.HeldBy ts) (hsub : ts ⊆ us) : s.HeldBy us := by
  obtain ⟨first, hfirst, last, hlast, hle⟩ := h
  exact ⟨first, hsub hfirst, last, hsub hlast, hle⟩

theorem HeldBy.ne_nil (h : s.HeldBy ts) : ts ≠ [] := by
  obtain ⟨first, hfirst, -⟩ := h
  exact List.ne_nil_of_mem hfirst

theorem HeldBy.cover (hs : s.HeldBy ts) (ht : t.HeldBy ts) : (s.cover t).HeldBy ts := by
  obtain ⟨first, hfirst, last, hlast, hle⟩ := hs
  obtain ⟨first', hfirst', last', hlast', hle'⟩ := ht
  have hstart : ∃ f ∈ ts, f.start ≤ (s.cover t).start := by
    rcases Nat.le_total s.start t.start with h | h
    · exact ⟨first, hfirst, Nat.le_min.2 ⟨hle.1, Nat.le_trans hle.1 h⟩⟩
    · exact ⟨first', hfirst', Nat.le_min.2 ⟨Nat.le_trans hle'.1 h, hle'.1⟩⟩
  have hstop : ∃ l ∈ ts, (s.cover t).stop ≤ l.stop := by
    rcases Nat.le_total s.stop t.stop with h | h
    · exact ⟨last', hlast', Nat.max_le.2 ⟨Nat.le_trans h hle'.2, hle'.2⟩⟩
    · exact ⟨last, hlast, Nat.max_le.2 ⟨hle.2, Nat.le_trans h hle.2⟩⟩
  obtain ⟨f, hf, hfle⟩ := hstart
  obtain ⟨l, hl, hlle⟩ := hstop
  exact ⟨f, hf, l, hl, hfle, hlle⟩

theorem heldBy_ofToken {t : Token} (h : t ∈ ts) : (ofToken t).HeldBy ts :=
  ⟨t, h, t, h, Nat.le_refl _, Nat.le_refl _⟩

theorem ofTokens_eq (hne : ts ≠ []) : ofTokens ts = ⟨(ts.head hne).start, (ts.getLast hne).stop⟩ := by
  simp only [ofTokens, List.head?_eq_some_head hne, List.getLast?_eq_some_getLast hne]

theorem heldBy_ofTokens (hne : ts ≠ []) : (ofTokens ts).HeldBy ts := by
  rw [ofTokens_eq hne]
  exact ⟨_, List.head_mem hne, _, List.getLast_mem hne, Nat.le_refl _, Nat.le_refl _⟩

end Span

/-! Tokens one behind the other. -/

/-- Tokens that stand one behind the other, at places where spans may end. -/
structure Token.Laid (P : Nat → Prop) (ts : List Token) : Prop where
  inOrder : ts.Pairwise fun t u => t.stop ≤ u.start
  sits : ∀ t ∈ ts, (Span.ofToken t).Sits P

namespace Token.Laid

variable {ts us : List Token} {s : Span}

theorem sublist (h : Laid P ts) (hsub : us.Sublist ts) : Laid P us :=
  ⟨h.inOrder.sublist hsub, fun t ht => h.sits t (hsub.subset ht)⟩

theorem start_le (h : Laid P ts) (hne : ts ≠ []) {t : Token} (ht : t ∈ ts) :
    (ts.head hne).start ≤ t.start := by
  cases ts with
  | nil => exact absurd rfl hne
  | cons first ts =>
    rcases List.mem_cons.1 ht with rfl | ht
    · exact Nat.le_refl _
    · have hbefore : first.stop ≤ t.start := List.rel_of_pairwise_cons h.inOrder ht
      exact Nat.le_trans (h.sits first List.mem_cons_self).1 hbefore

theorem le_stop (h : Laid P ts) (hne : ts ≠ []) {t : Token} (ht : t ∈ ts) :
    t.stop ≤ (ts.getLast hne).stop := by
  induction ts generalizing t with
  | nil => exact absurd rfl hne
  | cons first ts ih =>
    cases ts with
    | nil =>
      rw [List.mem_singleton.1 ht]
      exact Nat.le_refl _
    | cons second ts =>
      have hlater {u : Token} : u ∈ second :: ts → u.stop ≤ _ :=
        ih (h.sublist (List.sublist_cons_self ..)) (by simp)
      rw [List.getLast_cons (by simp)]
      rcases List.mem_cons.1 ht with rfl | ht
      · have hbefore : t.stop ≤ second.start := List.rel_of_pairwise_cons h.inOrder List.mem_cons_self
        have hsecond := (h.sits second (by simp)).1
        exact Nat.le_trans (Nat.le_trans hbefore hsecond) (hlater List.mem_cons_self)
      · exact hlater ht

/-- What tokens hold lies between the first of them and the last. -/
theorem within (h : Laid P ts) (hs : s.HeldBy ts) : s.Within (.ofTokens ts) := by
  have hne := hs.ne_nil
  obtain ⟨first, hfirst, last, hlast, hstart, hstop⟩ := hs
  rw [Span.ofTokens_eq hne]
  exact ⟨Nat.le_trans (h.start_le hne hfirst) hstart, Nat.le_trans hstop (h.le_stop hne hlast)⟩

theorem sits_ofTokens (h : Laid P ts) (hne : ts ≠ []) : (Span.ofTokens ts).Sits P := by
  have hfirst := h.sits _ (List.head_mem hne)
  have hlast := h.sits _ (List.getLast_mem hne)
  rw [Span.ofTokens_eq hne]
  refine ⟨?_, hfirst.2.1, hlast.2.2⟩
  exact Nat.le_trans hfirst.1 (h.le_stop hne (List.head_mem hne))

/-- Tokens that stand one behind the other cover what is between the first and the last. -/
theorem over_eq (h : Laid P ts) : Span.over ts = .ofTokens ts := by
  rcases List.eq_nil_or_concat ts with rfl | ⟨us, t, rfl⟩
  · rfl
  · have hle := (h.sits_ofTokens (by simp)).1
    rw [Span.over, Nat.max_eq_left hle]

end Token.Laid

/-! Nodes. -/

namespace Node

/-- The statements that stand directly below a paragraph. -/
def statements : Node → List Stmt
  | paragraph n => n.statements
  | stmt (.paragraph statements _ _) => statements
  | _ => []

theorem mem_children_of_mem_statements {n : Node} {s : Stmt} (h : s ∈ n.statements) :
    .stmt s ∈ n.children := by
  have hmem {statements : List Stmt} (before : List Node) (hs : s ∈ statements) :
      Node.stmt s ∈ before ++ statements.map .stmt :=
    List.mem_append_right _ (List.mem_map.2 ⟨s, hs, rfl⟩)
  unfold statements at h
  split at h
  · exact hmem _ h
  · exact hmem _ h
  · exact absurd h List.not_mem_nil

/-- A tree of which every node sits at allowed places and holds its children, and every
    paragraph has its statements one behind the other. -/
inductive Nested (P : Nat → Prop) : Node → Prop where
  | intro {n : Node} (sits : n.span.Sits P) (within : ∀ c ∈ n.children, c.span.Within n.span)
      (inOrder : n.statements.Pairwise fun s t => s.span.stop ≤ t.span.start)
      (below : ∀ c ∈ n.children, Nested P c) : Nested P n

variable {n m : Node}

theorem Nested.sits (h : n.Nested P) : n.span.Sits P := by
  cases h with
  | intro sits => exact sits

theorem Nested.of_mem_children (h : n.Nested P) (hm : m ∈ n.children) :
    m.Nested P ∧ m.span.Within n.span := by
  cases h with
  | intro _ within _ below => exact ⟨below m hm, within m hm⟩

theorem mem_preorderFrom {depth k : Nat} (h : (k, m) ∈ n.preorderFrom depth) :
    m = n ∨ ∃ c ∈ n.children, (k, m) ∈ c.preorderFrom (depth + 1) := by
  rw [preorderFrom, List.mem_cons] at h
  rcases h with h | h
  · exact .inl (Prod.mk.inj h).2
  · obtain ⟨⟨c, hc⟩, -, hm⟩ := List.mem_flatMap.1 h
    exact .inr ⟨c, hc, hm⟩

/-- All of a well-nested tree is well nested. -/
theorem Nested.of_mem_preorder (h : n.Nested P) (hm : m ∈ n.preorder) : m.Nested P := by
  obtain ⟨⟨k, m⟩, hfrom, rfl⟩ := List.mem_map.1 hm
  clear hm
  generalize 0 = depth at hfrom
  induction h generalizing depth with
  | @intro n sits within inOrder below ih =>
    rcases mem_preorderFrom hfrom with rfl | ⟨c, hc, hfrom⟩
    · exact .intro sits within inOrder below
    · exact ih c hc _ hfrom

/-- A well-nested tree that some tokens hold. -/
structure Fits (P : Nat → Prop) (ts : List Token) (n : Node) : Prop where
  nested : n.Nested P
  held : n.span.HeldBy ts

variable {ts us : List Token}

theorem Fits.mono (h : n.Fits P ts) (hsub : ts ⊆ us) : n.Fits P us := ⟨h.nested, h.held.mono hsub⟩

/-- A tree that was built from a part of the tokens. -/
theorem Fits.of_part (h : Token.Laid P us → n.Fits P us) (hts : Token.Laid P ts)
    (hsub : us.Sublist ts) : n.Fits P ts :=
  (h (hts.sublist hsub)).mono hsub.subset

/-- What covers all tokens holds whatever they hold. -/
theorem fits_ofTokens (hts : Token.Laid P ts) (hne : ts ≠ []) (hspan : n.span = .ofTokens ts)
    (hstatements : n.statements = []) (hchildren : ∀ c ∈ n.children, c.Fits P ts) :
    n.Fits P ts := by
  refine ⟨.intro ?_ (fun c hc => ?_) ?_ fun c hc => (hchildren c hc).nested, ?_⟩
  · rw [hspan]
    exact hts.sits_ofTokens hne
  · rw [hspan]
    exact hts.within (hchildren c hc).held
  · rw [hstatements]
    exact .nil
  · rw [hspan]
    exact Span.heldBy_ofTokens hne

theorem fits_over (hts : Token.Laid P ts) (hne : ts ≠ []) (hspan : n.span = .over ts)
    (hstatements : n.statements = []) (hchildren : ∀ c ∈ n.children, c.Fits P ts) :
    n.Fits P ts :=
  fits_ofTokens hts hne (hspan.trans hts.over_eq) hstatements hchildren

/-- What covers two spans holds what they hold. -/
theorem fits_cover {s t : Span} (hs : s.Sits P ∧ s.HeldBy ts) (ht : t.Sits P ∧ t.HeldBy ts)
    (hspan : n.span = s.cover t) (hstatements : n.statements = [])
    (hchildren : ∀ c ∈ n.children, c.Nested P ∧ (c.span.Within s ∨ c.span.Within t)) : n.Fits P ts := by
  refine ⟨.intro ?_ (fun c hc => ?_) ?_ fun c hc => (hchildren c hc).1, ?_⟩
  · rw [hspan]
    exact hs.1.cover ht.1
  · rw [hspan]
    rcases (hchildren c hc).2 with h | h
    · exact h.trans (Span.within_cover_left ..)
    · exact h.trans (Span.within_cover_right ..)
  · rw [hstatements]
    exact .nil
  · rw [hspan]
    exact hs.2.cover ht.2

theorem Fits.span (h : n.Fits P ts) : n.span.Sits P ∧ n.span.HeldBy ts := ⟨h.nested.sits, h.held⟩

/-- What covers its two children holds them. -/
theorem fits_pair {a b : Node} (ha : a.Fits P ts) (hb : b.Fits P ts)
    (hspan : n.span = a.span.cover b.span) (hstatements : n.statements = [])
    (hchildren : n.children = [a, b]) : n.Fits P ts := by
  refine fits_cover ha.span hb.span hspan hstatements ?_
  rw [hchildren]
  exact List.forall_mem_cons.2
    ⟨⟨ha.nested, .inl (.refl _)⟩, List.forall_mem_singleton.2 ⟨hb.nested, .inr (.refl _)⟩⟩

/-- What covers as much as its only child holds it. -/
theorem fits_single {a : Node} (ha : a.Fits P ts) (hspan : n.span = a.span)
    (hstatements : n.statements = []) (hchildren : n.children = [a]) : n.Fits P ts := by
  have hcover : a.span.cover a.span = a.span := by
    simp only [Span.cover, Nat.min_self, Nat.max_self]
  refine fits_cover ha.span ha.span (hspan.trans hcover.symm) hstatements ?_
  rw [hchildren]
  exact List.forall_mem_singleton.2 ⟨ha.nested, .inl (.refl _)⟩

/-- What covers one token and has nothing below it. -/
theorem fits_leaf {t : Token} (hts : Token.Laid P ts) (ht : t ∈ ts) (hspan : n.span = .ofToken t)
    (hstatements : n.statements = []) (hchildren : n.children = []) : n.Fits P ts := by
  have hone (hone : Token.Laid P [t]) : n.Fits P [t] := by
    refine fits_ofTokens hone (by simp) hspan hstatements ?_
    rw [hchildren]
    exact nofun
  exact .of_part hone hts (List.singleton_sublist.2 ht)

end Node

end Prose
