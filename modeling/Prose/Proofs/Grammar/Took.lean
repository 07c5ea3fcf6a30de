import Prose.Proofs.Grammar.Course
import Prose.Proofs.Grammar.Wording

/- Tokens taken. A rule gives something from an index on only if what it gives and the
   index where it stops are in a relation; the relation for two rules in a row follows
   from theirs. The relation that matters is between what a rule gives and the tokens
   that it took, which add up from rule to rule and go away where the cursor goes back. -/
namespace Prose.Grammar

open Rule

variable {α β : Type}

namespace Rule

/-- Whatever the rule gives from an index, it and the index where the rule stops are in the
    relation. -/
def Gives (x : Rule α) (i : Nat) (P : α → Nat → Prop) : Prop :=
  ∀ s a t, s.pos = i → x s = (some a, t) → P a t.pos

namespace Gives

variable {x : Rule α} {i j : Nat} {P : α → Nat → Prop} {Q : β → Nat → Prop}

theorem pure' {a : α} (h : P a i) : (pure a : Rule α).Gives i P := by
  intro s b t hs0 hs
  subst hs0
  obtain ⟨hab, rfl⟩ := Prod.mk.inj hs
  obtain rfl := Option.some.inj hab
  exact h

theorem fail (what : String) : (Rule.fail what : Rule α).Gives i P :=
  fun _ _ _ _ hs => absurd (Prod.mk.inj hs).1 nofun

theorem bind' {f : α → Rule β} (hx : x.Gives i P) (hf : ∀ a j, P a j → (f a).Gives j Q) :
    (x >>= f).Gives i Q := by
  intro s b t hi hs
  rcases hxs : x s with ⟨_ | a, u⟩
  · rw [bind_none hxs] at hs
    cases (Prod.mk.inj hs).1
  · rw [bind_some hxs] at hs
    exact hf a u.pos (hx s a u hi hxs) u b t rfl hs

theorem position {f : Nat → Rule β} (h : (f i).Gives i Q) : (Rule.position >>= f).Gives i Q := by
  intro s b t hs0 hs
  subst hs0
  exact h s b t rfl hs

theorem moveTo {y : Unit → Rule β} (h : (y ()).Gives j Q) : (Rule.moveTo j >>= y).Gives i Q :=
  fun s b t _ hs => h (s.moved j) b t rfl hs

/-- Whether a rule fails is known, but not where it stops then. -/
theorem outcome {f : Option α → Rule β} (hx : x.Gives i P)
    (hsome : ∀ a j, P a j → (f (some a)).Gives j Q) (hnone : ∀ j, (f none).Gives j Q) :
    (Rule.outcome x >>= f).Gives i Q := by
  intro s b t hi hs
  rw [bind_some (outcome_eq (x := x))] at hs
  rcases hxs : x s with ⟨_ | a, u⟩ <;> rw [hxs] at hs
  · exact hnone u.pos u b t rfl hs
  · exact hsome a u.pos (hx s a u hi hxs) u b t rfl hs

theorem ite' {c : Prop} [Decidable c] {y : Rule α} (hx : c → x.Gives i P) (hy : ¬c → y.Gives i P) :
    (if c then x else y).Gives i P := by
  split
  · next h => exact hx h
  · next h => exact hy h

theorem attempt (hx : x.Gives i P) : (Rule.attempt x).Gives i P := by
  intro s a t hi hs
  rcases hxs : x s with ⟨_ | b, u⟩
  · rw [attempt_none hxs] at hs
    cases (Prod.mk.inj hs).1
  · rw [attempt_some hxs] at hs
    exact hx s a t hi (hxs.trans hs)

/-- Where a rule is attempted and fails, the cursor is where it was. -/
theorem outcome_attempt {f : Option α → Rule β} (hx : (Rule.attempt x).Gives i P)
    (hsome : ∀ a j, P a j → (f (some a)).Gives j Q) (hnone : (f none).Gives i Q) :
    (Rule.outcome (Rule.attempt x) >>= f).Gives i Q := by
  intro s b t hi hs
  rw [bind_some (outcome_eq (x := Rule.attempt x))] at hs
  rcases hxs : Rule.attempt x s with ⟨_ | a, u⟩ <;> rw [hxs] at hs
  · exact hnone u b t ((attempt_pos hxs).trans hi) hs
  · exact hsome a u.pos (hx s a u hi hxs) u b t rfl hs

theorem firstOf_nil : (firstOf ([] : List (Rule α))).Gives i P :=
  fun _ _ _ _ hs => absurd (Prod.mk.inj hs).1 nofun

theorem firstOf_cons {xs : List (Rule α)} (hx : x.Gives i P) (hxs : (firstOf xs).Gives i P) :
    (firstOf (x :: xs)).Gives i P := by
  intro s a t hi hs
  rcases hxs' : Rule.attempt x s with ⟨_ | b, u⟩
  · rw [firstOf_cons_none hxs'] at hs
    exact hxs u a t ((attempt_pos hxs').trans hi) hs
  · rw [firstOf_cons_some hxs'] at hs
    exact hx.attempt s a t hi (hxs'.trans hs)

theorem mono {P' : α → Nat → Prop} (hx : x.Gives i P) (h : ∀ a j, P a j → P' a j) :
    x.Gives i P' :=
  fun s a t hi hs => h a t.pos (hx s a t hi hs)

theorem and {P' : α → Nat → Prop} (hx : x.Gives i P) (hx' : x.Gives i P') :
    x.Gives i fun a j => P a j ∧ P' a j :=
  fun s a t hi hs => ⟨hx s a t hi hs, hx' s a t hi hs⟩

end Gives

end Rule

namespace Phrase

variable {p : Phrase} {i j k : Nat} {ts us : List Token}

/-- Some tokens stand from one index up to another. -/
def Took (p : Phrase) (i : Nat) (ts : List Token) (j : Nat) : Prop :=
  ts <+: p.tokens.drop i ∧ j = i + ts.length

theorem took_nil : p.Took i [] i := ⟨List.nil_prefix, rfl⟩

theorem Took.append (h : p.Took i ts j) (h' : p.Took j us k) : p.Took i (ts ++ us) k := by
  obtain ⟨⟨rest, hrest⟩, rfl⟩ := h
  obtain ⟨hus, rfl⟩ := h'
  refine ⟨?_, by rw [List.length_append]; omega⟩
  rw [← List.drop_drop, ← hrest, List.drop_left] at hus
  rw [← hrest]
  exact (List.prefix_append_right_inj ts).2 hus

theorem Took.between_eq (h : p.Took i ts j) : p.between i j = ts := by
  obtain ⟨hts, rfl⟩ := h
  rw [between, Nat.add_sub_cancel_left]
  exact (List.prefix_iff_eq_take.1 hts).symm

/-- Tokens that are taken stand before the end of the phrase. -/
theorem Took.lt_and_le (h : p.Took i ts j) (hne : ts ≠ []) : i < j ∧ j ≤ p.size := by
  obtain ⟨hts, rfl⟩ := h
  have hpos := List.length_pos_iff.2 hne
  have hle := hts.length_le
  rw [List.length_drop] at hle
  simp only [size]
  omega

/-- Only tokens of the phrase have a kind that is not an end. -/
theorem lt_size_of_kindAt {k : Kind} (h : p.kindAt i = k) (hk : k ≠ .stop) : i < p.size := by
  apply Nat.lt_of_not_le
  intro hle
  rw [kindAt, tokenAt, List.getElem?_eq_none hle] at h
  exact hk h.symm

theorem took_one (h : i < p.size) : p.Took i [p.tokenAt i] (i + 1) := by
  refine ⟨⟨p.tokens.drop (i + 1), ?_⟩, rfl⟩
  rw [tokenAt, List.getElem?_eq_getElem h, List.drop_eq_getElem_cons h]
  rfl

/-- Whatever the rule gives is said by the tokens that it took. -/
def Reads (p : Phrase) (x : Rule α) (Q : α → List Token → Prop) : Prop :=
  ∀ i, x.Gives i fun a j => ∃ ts, p.Took i ts j ∧ Q a ts

/-! Taking single tokens. -/

theorem gives_at? {k : Kind} {f : Bool → Rule β} {Q : β → Nat → Prop}
    (h : (f (p.kindAt i == k)).Gives i Q) : (p.at? k >>= f).Gives i Q := by
  intro s b t hs0 hs
  subst hs0
  exact h s b t rfl hs

theorem gives_atAny? {kinds : List Kind} {f : Bool → Rule β} {Q : β → Nat → Prop}
    (h : (f (kinds.contains (p.kindAt i))).Gives i Q) : (p.atAny? kinds >>= f).Gives i Q := by
  intro s b t hs0 hs
  subst hs0
  exact h s b t rfl hs

theorem gives_advance (h : i < p.size) :
    p.advance.Gives i fun a j => a = p.tokenAt i ∧ p.Took i [a] j := by
  intro s a t hs0 hs
  subst hs0
  simp only [advance, h, if_true, Prod.mk.injEq, Option.some.injEq] at hs
  obtain ⟨rfl, rfl⟩ := hs
  exact ⟨rfl, took_one h⟩

theorem gives_spanFrom (first : Nat) : (p.spanFrom first).Gives i fun _ j => j = i := by
  intro s a t hs0 hs
  subst hs0
  rw [← (Prod.mk.inj hs).2]

theorem reads_eatAny {kinds : List Kind} {what : String} (hk : .stop ∉ kinds) :
    p.Reads (p.eatAny kinds what) fun a ts => a.kind ∈ kinds ∧ ts = [a] := by
  intro i
  refine gives_atAny? (.ite' (fun h => ?_) fun _ => .fail _)
  have hkind := List.contains_iff_mem.1 h
  have hlt : i < p.size := lt_size_of_kindAt rfl fun h' => hk (h' ▸ hkind)
  refine (gives_advance hlt).mono ?_
  intro a j hread
  obtain ⟨rfl, htook⟩ := hread
  exact ⟨_, htook, hkind, rfl⟩

theorem reads_skipArticles : p.Reads (p.skipAny articles) fun _ ts => MaybeArticle ts := by
  intro i
  refine gives_atAny? (.ite' (fun h => ?_) fun _ => .pure' ⟨[], took_nil, .inl rfl⟩)
  have hkind := List.contains_iff_mem.1 h
  have hlt : i < p.size := lt_size_of_kindAt rfl fun h' => by
    rw [h'] at hkind
    exact absurd hkind (by decide)
  refine (gives_advance hlt).bind' ?_
  intro a j hread
  obtain ⟨rfl, htook⟩ := hread
  exact .pure' ⟨_, htook, .inr ⟨_, hkind, rfl⟩⟩

theorem reads_longName : p.Reads p.longName fun name ts => Words name.1 ts := by
  intro i
  refine .position (.ite' (fun _ => .fail _) fun hne => .moveTo ?_)
  refine (gives_spanFrom i).bind' ?_
  intro span j hj
  obtain rfl := hj
  refine .pure' ⟨_, ⟨List.takeWhile_prefix _, rfl⟩, ?_, fun t ht => ?_, rfl⟩
  · exact fun h => hne (List.isEmpty_iff.2 h)
  · exact eq_of_beq (List.all_eq_true.1 List.all_takeWhile t ht)

end Phrase

end Prose.Grammar
