import Prose.Proofs.Grammar.Took
import Prose.Proofs.Token.Runs

/- Rules that succeed and rules that fail, from one index on and whatever was noted
   before. A rule that succeeds gives something of a sort and stops at an index that is
   known, so that rules in a row succeed if each does where the one before it stops. -/
namespace Prose.Grammar

open Rule

variable {α β : Type}

namespace Rule

/-- From one index the rule gives something of a sort, and stops at another index. -/
def Yields (x : Rule α) (i : Nat) (P : α → Prop) (j : Nat) : Prop :=
  ∀ s, s.pos = i → ∃ a t, x s = (some a, t) ∧ P a ∧ t.pos = j

/-- From an index the rule gives nothing. -/
def Refuses (x : Rule α) (i : Nat) : Prop := x.Gives i fun _ _ => False

variable {x y : Rule α} {i j k : Nat} {P : α → Prop} {Q : β → Prop}

theorem Refuses.eq_none {s : Progress} (hx : x.Refuses i) (hs : s.pos = i) :
    ∃ t, x s = (none, t) := by
  rcases h : x s with ⟨_ | a, t⟩
  · exact ⟨t, rfl⟩
  · exact (hx s a t hs h).elim

theorem bind_assoc {γ : Type} (x : Rule α) (f : α → Rule β) (g : β → Rule γ) :
    ((x >>= f) >>= g) = (x >>= fun a => f a >>= g) := by
  funext s
  rcases h : x s with ⟨_ | a, t⟩
  · rw [bind_none h, bind_none (bind_none h)]
  · rw [bind_some h]
    simp only [bind, h]

/-- Nothing is given behind a rule that gives nothing. -/
theorem Refuses.bind' {f : α → Rule β} (hx : x.Refuses i) : (x >>= f).Refuses i :=
  Gives.bind' hx fun _ _ h => h.elim

namespace Yields

/-- What a rule gives is of no other sort, and it stops nowhere else. -/
theorem gives (hx : x.Yields i P j) : x.Gives i fun a k => P a ∧ k = j := by
  intro s a t hs h
  obtain ⟨b, u, hb, hP, hj⟩ := hx s hs
  rw [h] at hb
  obtain ⟨hab, rfl⟩ := Prod.mk.inj hb
  obtain rfl := Option.some.inj hab
  exact ⟨hP, hj⟩

/-- Nothing is given where the second of two rules gives nothing. -/
theorem refuses {f : α → Rule β} (hx : x.Yields i P j) (hf : ∀ a, P a → (f a).Refuses j) :
    (x >>= f).Refuses i :=
  hx.gives.bind' fun a _ ⟨ha, hk⟩ => hk ▸ hf a ha

theorem pure' {a : α} (h : P a) : (pure a : Rule α).Yields i P i := fun s hs => ⟨a, s, rfl, h, hs⟩

theorem bind' {f : α → Rule β} (hx : x.Yields i P j) (hf : ∀ a, P a → (f a).Yields j Q k) :
    (x >>= f).Yields i Q k := by
  intro s hs
  obtain ⟨a, t, ha, hP, ht⟩ := hx s hs
  rw [bind_some ha]
  exact hf a hP t ht

theorem mono {P' : α → Prop} (hx : x.Yields i P j) (h : ∀ a, P a → P' a) : x.Yields i P' j := by
  intro s hs
  obtain ⟨a, t, ha, hP, ht⟩ := hx s hs
  exact ⟨a, t, ha, h a hP, ht⟩

theorem position {f : Nat → Rule β} (h : (f i).Yields i Q j) :
    (Rule.position >>= f).Yields i Q j := by
  intro s hs
  obtain rfl := hs
  exact h s rfl

theorem moveTo {f : Unit → Rule β} (h : (f ()).Yields j Q k) :
    (Rule.moveTo j >>= f).Yields i Q k :=
  fun s _ => h (s.moved j) rfl

theorem outcome {f : Option α → Rule β} (hx : x.Yields i P j)
    (hf : ∀ a, P a → (f (some a)).Yields j Q k) : (Rule.outcome x >>= f).Yields i Q k := by
  intro s hs
  obtain ⟨a, t, ha, hP, ht⟩ := hx s hs
  rw [bind_some (outcome_eq (x := x)), ha]
  exact hf a hP t ht

/-- What succeeds behind a rule succeeds behind its outcome. -/
theorem outcome_of_bind {f : Option α → Rule β} (h : (x >>= fun a => f (some a)).Yields i Q k) :
    (Rule.outcome x >>= f).Yields i Q k := by
  intro s hs
  obtain ⟨b, u, hb, h⟩ := h s hs
  refine ⟨b, u, ?_, h⟩
  rw [bind_some (outcome_eq (x := x))]
  rcases hx : x s with ⟨_ | a, t⟩
  · rw [bind_none hx] at hb
    cases (Prod.mk.inj hb).1
  · rwa [bind_some hx] at hb

/-- A rule that is attempted in vain leaves the cursor where it was. -/
theorem outcome_refused {f : Option α → Rule β} (hx : (Rule.attempt x).Refuses i)
    (hf : (f none).Yields i Q k) : (Rule.outcome (Rule.attempt x) >>= f).Yields i Q k := by
  intro s hs
  obtain ⟨t, ht⟩ := hx.eq_none hs
  rw [bind_some (outcome_eq (x := Rule.attempt x)), ht]
  exact hf t ((attempt_pos ht).trans hs)

theorem attempt (hx : x.Yields i P j) : (Rule.attempt x).Yields i P j := by
  intro s hs
  obtain ⟨a, t, ha, h⟩ := hx s hs
  exact ⟨a, t, attempt_some ha, h⟩

theorem firstOf_cons {xs : List (Rule α)} (hx : x.Yields i P j) :
    (firstOf (x :: xs)).Yields i P j := by
  intro s hs
  obtain ⟨a, t, ha, h⟩ := hx.attempt s hs
  exact ⟨a, t, firstOf_cons_some ha, h⟩

/-- The later alternatives count where the first one gives nothing. -/
theorem firstOf_later {xs : List (Rule α)} (hx : x.Refuses i) (hxs : (firstOf xs).Yields i P j) :
    (firstOf (x :: xs)).Yields i P j := by
  intro s hs
  obtain ⟨t, ht⟩ := Refuses.eq_none (Gives.attempt hx) hs
  rw [firstOf_cons_none ht]
  exact hxs t ((attempt_pos ht).trans hs)

theorem ite_pos {c : Prop} [Decidable c] (hc : c) (hx : x.Yields i P j) :
    (if c then x else y).Yields i P j := by rwa [if_pos hc]

theorem ite_neg {c : Prop} [Decidable c] (hc : ¬c) (hy : y.Yields i P j) :
    (if c then x else y).Yields i P j := by rwa [if_neg hc]

end Yields

end Rule

namespace Phrase

variable {p : Phrase} {i j k : Nat} {t : Token} {ts us : List Token} {x : Rule α} {P : α → Prop}
  {Q : β → Prop}

/-! Taking some tokens apart. -/

theorem took_append : p.Took i (ts ++ us) k ↔ ∃ j, p.Took i ts j ∧ p.Took j us k := by
  constructor
  · intro hread
    obtain ⟨hpre, rfl⟩ := hread
    refine ⟨i + ts.length, ⟨(List.prefix_append ts us).trans hpre, rfl⟩, ?_, ?_⟩
    · obtain ⟨rest, hrest⟩ := hpre
      rw [← List.drop_drop, ← hrest, List.append_assoc, List.drop_left]
      exact List.prefix_append us rest
    · rw [List.length_append, Nat.add_assoc]
  · intro hread
    obtain ⟨j, hts, hus⟩ := hread
    exact hts.append hus

theorem took_cons : p.Took i (t :: ts) j ↔ p.Took i [t] (i + 1) ∧ p.Took (i + 1) ts j := by
  rw [← List.singleton_append, took_append]
  constructor
  · intro hread
    obtain ⟨k, ht, hts⟩ := hread
    obtain rfl : k = i + 1 := ht.2
    exact ⟨ht, hts⟩
  · exact fun ⟨ht, hts⟩ => ⟨i + 1, ht, hts⟩

theorem took_all : p.Took 0 p.tokens p.size := ⟨List.prefix_rfl, (Nat.zero_add _).symm⟩

theorem Took.lt_size (h : p.Took i [t] j) : i < p.size := by
  have := h.lt_and_le (List.cons_ne_nil _ _)
  omega

theorem Took.tokenAt_eq (h : p.Took i [t] j) : p.tokenAt i = t := by
  have htook := (took_one h.lt_size).between_eq
  obtain rfl : j = i + 1 := h.2
  exact List.head_eq_of_cons_eq (htook.symm.trans h.between_eq)

theorem Took.kindAt_eq (h : p.Took i [t] j) : p.kindAt i = t.kind := by
  rw [kindAt, h.tokenAt_eq]

/-- Behind the last token stands an end. -/
theorem kindAt_size : p.kindAt p.size = .stop := by
  rw [kindAt, tokenAt, size, List.getElem?_eq_none (Nat.le_refl _)]
  rfl

/-! Looking at tokens and taking them. -/

theorem yields_at? {k : Kind} {f : Bool → Rule β} (h : (f (p.kindAt i == k)).Yields i Q j) :
    (p.at? k >>= f).Yields i Q j := by
  intro s hs
  obtain rfl := hs
  exact h s rfl

theorem yields_here {f : Kind → Rule β} (h : (f (p.kindAt i)).Yields i Q j) :
    (p.here >>= f).Yields i Q j := by
  intro s hs
  obtain rfl := hs
  exact h s rfl

theorem yields_spanFrom (first : Nat) : (p.spanFrom first).Yields i (fun _ => True) i :=
  fun s hs => ⟨_, s, rfl, trivial, hs⟩

theorem yields_advance (h : p.Took i [t] j) : p.advance.Yields i (· = t) j := by
  intro s hs
  refine ⟨p.tokenAt s.pos, { s with pos := s.pos + 1 }, ?_, ?_, ?_⟩
  · simp only [advance, hs, h.lt_size, if_true]
  · rw [hs, h.tokenAt_eq]
  · rw [hs, h.2]
    rfl

theorem yields_eat {k : Kind} (h : p.Took i [t] j) (hk : t.kind = k) :
    (p.eat k).Yields i (· = t) j := by
  refine yields_at? (.ite_pos ?_ (yields_advance h))
  rw [h.kindAt_eq, hk]
  exact beq_self_eq_true k

theorem refuses_eat {k : Kind} (h : p.kindAt i ≠ k) : (p.eat k).Refuses i :=
  gives_at? (.ite' (fun hk => absurd (eq_of_beq hk) h) fun _ => .fail _)

theorem yields_eatAny {kinds : List Kind} {what : String} (h : p.Took i [t] j)
    (hk : t.kind ∈ kinds) : (p.eatAny kinds what).Yields i (· = t) j := by
  have hat : kinds.contains (p.kindAt i) = true := by
    rw [h.kindAt_eq]
    exact List.contains_iff_mem.2 hk
  intro s hs
  obtain rfl := hs
  exact Yields.ite_pos hat (yields_advance h) s rfl

theorem refuses_eatAny {kinds : List Kind} {what : String} (h : p.kindAt i ∉ kinds) :
    (p.eatAny kinds what).Refuses i :=
  gives_atAny? (.ite' (fun hk => absurd (List.contains_iff_mem.1 hk) h) fun _ => .fail _)

theorem yields_skipAny {kinds : List Kind} (h : p.Took i [t] j) (hk : t.kind ∈ kinds) :
    (p.skipAny kinds).Yields i (fun _ => True) j := by
  have hat : kinds.contains (p.kindAt i) = true := by
    rw [h.kindAt_eq]
    exact List.contains_iff_mem.2 hk
  intro s hs
  obtain rfl := hs
  exact Yields.ite_pos hat (.bind' (yields_advance h) fun _ _ => .pure' trivial) s rfl

theorem yields_skipNone {kinds : List Kind} (h : p.kindAt i ∉ kinds) :
    (p.skipAny kinds).Yields i (fun _ => True) i := by
  have hat : ¬kinds.contains (p.kindAt i) = true := fun hk => h (List.contains_iff_mem.1 hk)
  intro s hs
  obtain rfl := hs
  exact Yields.ite_neg hat (.pure' trivial) s rfl

/-- A rule that stops at the end takes all tokens. -/
theorem yields_complete (hx : x.Yields i P j) (hj : p.kindAt j = .stop) :
    (p.complete x).Yields i P j := by
  refine .attempt (.bind' hx fun a ha => yields_at? (.ite_pos ?_ (.pure' ha)))
  rw [hj]
  exact beq_self_eq_true _

theorem refuses_complete (hx : x.Refuses i) : (p.complete x).Refuses i := Gives.attempt hx.bind'

theorem yields_firstComplete {xs : List (Rule α)} (hx : x.Yields i P j) (hj : p.kindAt j = .stop) :
    (p.firstComplete (x :: xs)).Yields i P j :=
  .firstOf_cons (yields_complete hx hj)

/-- A rule that refuses leaves the sentence to the rules behind it. -/
theorem yields_firstComplete_later {xs : List (Rule α)} (hx : x.Refuses i)
    (hxs : (p.firstComplete xs).Yields i P j) : (p.firstComplete (x :: xs)).Yields i P j :=
  .firstOf_later (refuses_complete hx) hxs

/-! Names. -/

/-- A name is taken up to the first token that is no word of it. -/
theorem yields_longName {name : String} (h : p.Took i ts j) (hname : Words name ts)
    (hj : p.kindAt j ≠ .identifier) : p.longName.Yields i (fun n => n.1 = name) j := by
  obtain ⟨hne, hkinds, rfl⟩ := hname
  obtain ⟨⟨rest, hrest⟩, rfl⟩ := h
  have hstop : ∀ t ∈ rest.head?, (t.kind == .identifier) = false := by
    intro t ht
    obtain ⟨later, rfl⟩ := List.head?_eq_some_iff.1 (Option.mem_def.1 ht)
    have htook : p.Took (i + ts.length) [t] (i + ts.length + 1) := by
      refine ⟨⟨later, ?_⟩, rfl⟩
      rw [← List.drop_drop, ← hrest, List.drop_left]
      rfl
    rw [htook.kindAt_eq] at hj
    exact beq_false_of_ne hj
  have hwords : (p.tokens.drop i).takeWhile (fun t => t.kind == .identifier) = ts := by
    rw [← hrest]
    exact Token.takeWhile_run (fun t ht => beq_iff_eq.2 (hkinds t ht)) hstop
  refine .position ?_
  simp only [hwords]
  refine .ite_neg (fun h => hne (List.isEmpty_iff.1 h)) (.moveTo ?_)
  exact .bind' (yields_spanFrom i) fun _ _ => .pure' rfl

end Phrase

end Prose.Grammar
