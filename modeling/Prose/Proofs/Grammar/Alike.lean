import Prose.Proofs.Grammar.DerivedSentence
import Prose.Proofs.Grammar.Yields

/- What a rule depends on. Two phrases of the same tokens may end at different offsets, keep
   different branches in mind and have room for different depths. A rule does the same in
   both, notes included, wherever it starts among the tokens: the closing token is never part
   of what is given, and room for as many levels as there are tokens is never used up. That is
   shown construct by construct, together with the bounds of the cursor that it rests on, for
   phrases that keep no results. -/
namespace Prose.Grammar

open Rule

variable {α β γ δ : Type}

namespace Phrase

/-- From index `i` on, two rules do the same, and where they give something they stop between
    index `n` and the end. -/
def AlikeAt (p : Phrase) (i n : Nat) (x y : Rule α) : Prop :=
  ∀ s, s.pos = i → y s = x s ∧ ∀ a t, x s = (some a, t) → n ≤ t.pos ∧ t.pos ≤ p.size

/-- The same from every index between `n` and the end. -/
def Alike (p : Phrase) (n : Nat) (x y : Rule α) : Prop :=
  ∀ i, n ≤ i → i ≤ p.size → p.AlikeAt i n x y

variable {p : Phrase} {i n m : Nat}

namespace AlikeAt

variable {x y : Rule α}

theorem mono (h : p.AlikeAt i m x y) (hn : n ≤ m) : p.AlikeAt i n x y := by
  intro s hs
  obtain ⟨hsame, hbound⟩ := h s hs
  refine ⟨hsame, fun a t ht => ?_⟩
  have := hbound a t ht
  omega

theorem pure' (hn : n ≤ i) (hi : i ≤ p.size) (a : α) : p.AlikeAt i n (pure a) (pure a) := by
  intro s hs
  refine ⟨rfl, fun b t h => ?_⟩
  obtain ⟨-, rfl⟩ := Prod.mk.inj h
  omega

theorem fail (what : String) : p.AlikeAt i n (Rule.fail what : Rule α) (Rule.fail what) :=
  fun _ _ => ⟨rfl, fun _ _ h => by cases (Prod.mk.inj h).1⟩

/-- What is known once something was given may be used from then on. -/
theorem bind_of {P : Prop} {u v : Rule β} {k l : β → Rule α} (hu : p.AlikeAt i m u v)
    (hP : u.Gives i fun _ _ => P) (hk : P → ∀ a, p.Alike m (k a) (l a)) (hn : n ≤ m) :
    p.AlikeAt i n (u >>= k) (v >>= l) := by
  intro s hs
  obtain ⟨hsame, hbound⟩ := hu s hs
  rcases hus : u s with ⟨_ | a, t⟩ <;> rw [hus] at hsame
  · rw [bind_none hus, bind_none hsame]
    exact ⟨rfl, fun _ _ h => by cases h⟩
  · rw [bind_some hus, bind_some hsame]
    obtain ⟨hle, hsize⟩ := hbound a t hus
    exact ((hk (hP s a t hs hus) a t.pos hle hsize).mono hn) t rfl

theorem bind' {u v : Rule β} {k l : β → Rule α} (hu : p.AlikeAt i n u v)
    (hk : ∀ a, p.Alike n (k a) (l a)) : p.AlikeAt i n (u >>= k) (v >>= l) :=
  hu.bind_of (P := True) (fun _ _ _ _ _ => trivial) (fun _ => hk) (Nat.le_refl n)

theorem position {k l : Nat → Rule α} (h : p.AlikeAt i n (k i) (l i)) :
    p.AlikeAt i n (Rule.position >>= k) (Rule.position >>= l) := by
  intro s hs
  subst hs
  exact h s rfl

theorem moveTo {j : Nat} {k l : Unit → Rule α} (hn : n ≤ j) (hj : j ≤ p.size)
    (h : p.Alike n (k ()) (l ())) : p.AlikeAt i n (Rule.moveTo j >>= k) (Rule.moveTo j >>= l) :=
  fun s _ => h j hn hj (s.moved j) rfl

theorem ite' {c : Prop} [Decidable c] {x' y' : Rule α} (hx : c → p.AlikeAt i n x y)
    (hx' : ¬c → p.AlikeAt i n x' y') :
    p.AlikeAt i n (if c then x else x') (if c then y else y') := by
  split
  · next h => exact hx h
  · next h => exact hx' h

end AlikeAt

namespace Alike

variable {x y : Rule α}

theorem pure' (a : α) : p.Alike n (pure a) (pure a) := fun _ hn hi => .pure' hn hi a

theorem fail (what : String) : p.Alike n (Rule.fail what : Rule α) (Rule.fail what) :=
  fun _ _ _ => .fail what

theorem bind' {u v : Rule β} {k l : β → Rule α} (hu : p.Alike n u v)
    (hk : ∀ a, p.Alike n (k a) (l a)) : p.Alike n (u >>= k) (v >>= l) :=
  fun i hn hi => (hu i hn hi).bind' hk

theorem position {k l : Nat → Rule α}
    (h : ∀ i, n ≤ i → i ≤ p.size → p.AlikeAt i n (k i) (l i)) :
    p.Alike n (Rule.position >>= k) (Rule.position >>= l) :=
  fun i hn hi => .position (h i hn hi)

theorem attempt (h : p.Alike n x y) : p.Alike n (Rule.attempt x) (Rule.attempt y) := by
  intro i hn hi s hs
  obtain ⟨hsame, hbound⟩ := h i hn hi s hs
  rcases hxs : x s with ⟨_ | a, t⟩ <;> rw [hxs] at hsame
  · rw [attempt_none hxs, attempt_none hsame]
    exact ⟨rfl, fun _ _ h => by cases (Prod.mk.inj h).1⟩
  · rw [attempt_some hxs, attempt_some hsame]
    exact ⟨rfl, fun b u h => hbound b u (hxs.trans h)⟩

/-- Where a rule fails, something goes on that does not depend on where the cursor is. -/
theorem outcome {u v : Rule β} {k l : Option β → Rule α} (hu : p.Alike n u v)
    (hsome : ∀ a, p.Alike n (k (some a)) (l (some a)))
    (hnone : ∀ i, p.AlikeAt i n (k none) (l none)) :
    p.Alike n (Rule.outcome u >>= k) (Rule.outcome v >>= l) := by
  intro i hn hi s hs
  obtain ⟨hsame, hbound⟩ := hu i hn hi s hs
  rw [bind_some (outcome_eq (x := u)), bind_some (outcome_eq (x := v)), hsame]
  rcases hus : u s with ⟨_ | a, t⟩
  · exact hnone t.pos t rfl
  · obtain ⟨hle, hsize⟩ := hbound a t hus
    exact hsome a t.pos hle hsize t rfl

/-- A rule that is attempted goes back where it fails. -/
theorem outcome_attempt {u v : Rule β} {k l : Option β → Rule α}
    (hu : p.Alike n (Rule.attempt u) (Rule.attempt v)) (hk : ∀ a, p.Alike n (k a) (l a)) :
    p.Alike n (Rule.outcome (Rule.attempt u) >>= k) (Rule.outcome (Rule.attempt v) >>= l) := by
  intro i hn hi s hs
  obtain ⟨hsame, hbound⟩ := hu i hn hi s hs
  rw [bind_some (outcome_eq (x := Rule.attempt u)), bind_some (outcome_eq (x := Rule.attempt v)), hsame]
  rcases hus : Rule.attempt u s with ⟨_ | a, t⟩
  · have hback : t.pos = i := (attempt_pos hus).trans hs
    exact hk none i hn hi t hback
  · obtain ⟨hle, hsize⟩ := hbound a t hus
    exact hk (some a) t.pos hle hsize t rfl

theorem firstOf_nil : p.Alike n (firstOf ([] : List (Rule α))) (firstOf []) :=
  fun _ _ _ _ _ => ⟨rfl, fun _ _ h => by cases (Prod.mk.inj h).1⟩

theorem firstOf_cons {xs ys : List (Rule α)} (hx : p.Alike n x y)
    (hxs : p.Alike n (firstOf xs) (firstOf ys)) :
    p.Alike n (firstOf (x :: xs)) (firstOf (y :: ys)) := by
  intro i hn hi s hs
  obtain ⟨hsame, hbound⟩ := hx.attempt i hn hi s hs
  rcases hxs' : Rule.attempt x s with ⟨_ | a, t⟩ <;> rw [hxs'] at hsame
  · rw [firstOf_cons_none hxs', firstOf_cons_none hsame]
    exact hxs i hn hi t ((attempt_pos hxs').trans hs)
  · rw [firstOf_cons_some hxs', firstOf_cons_some hsame]
    exact ⟨rfl, fun b u h => hbound b u (hxs'.trans h)⟩

/-- Operands joined by operations. -/
theorem joined {operator : Nat → Option (MathOp × Nat)} {factor : Bool}
    (hfinds : p.Finds operator factor) {x y : Rule Expr} (hx : p.Alike n x y) (fuel : Nat) (left : Expr) :
    p.Alike n (Phrase.joined operator x fuel left) (Phrase.joined operator y fuel left) := by
  induction fuel generalizing left with
  | zero => exact .pure' left
  | succ fuel ih =>
    refine .position fun before hn hi => ?_
    split
    · exact pure' left before hn hi
    · next op length hop =>
      obtain ⟨-, os, hos, hsays⟩ := hfinds before op length hop
      have hne : os ≠ [] := by
        rintro rfl
        cases op <;> cases hsays
      obtain ⟨hlt, hsize⟩ := hos.lt_and_le hne
      exact .moveTo (by omega) hsize (.outcome hx (fun right => ih _) fun _ => .moveTo hn hi (.pure' left))

end Alike

/-- Two phrases of the same tokens that read branches alike, with the same room or with room
    for all their tokens. -/
structure Resembles (p q : Phrase) : Prop where
  fresh : p.memoize = false
  fresh' : q.memoize = false
  tokens : q.tokens = p.tokens
  room : q.room = p.room ∨ p.size ≤ p.room + 1 ∧ p.size ≤ q.room + 1
  branch : ∀ ts, ts ≠ [] → ts.length < p.size → q.branch ts = p.branch ts

namespace Resembles

variable {q : Phrase} (h : p.Resembles q)

/-! Tokens. -/

include h

theorem size : q.size = p.size := by simp only [Phrase.size, h.tokens]

theorem tokenAt (hi : i < p.size) : q.tokenAt i = p.tokenAt i := by
  rw [Phrase.tokenAt, Phrase.tokenAt, h.tokens, List.getElem?_eq_getElem hi]
  rfl

theorem kindAt (i : Nat) : q.kindAt i = p.kindAt i := by
  simp only [Phrase.kindAt, Phrase.tokenAt, h.tokens]
  cases p.tokens[i]? <;> rfl

theorem between (i j : Nat) : q.between i j = p.between i j := by
  simp only [Phrase.between, h.tokens]

theorem find? (i : Nat) (kinds : List Kind) : q.find? i kinds = p.find? i kinds := by
  simp only [Phrase.find?, h.tokens]

theorem spanBetween {j : Nat} (hi : i < p.size) (hj : j ≤ p.size) :
    q.spanBetween i j = p.spanBetween i j := by
  simp only [Phrase.spanBetween, h.tokenAt hi]
  split
  · rw [h.tokenAt (by omega)]
  · rfl

/-- Only what was taken before the end is part of a span. -/
theorem spanFrom (hi : i < p.size) : p.Alike n (p.spanFrom i) (q.spanFrom i) := by
  intro j hn hj s hs
  subst hs
  refine ⟨by simp only [Phrase.spanFrom, h.spanBetween hi hj], fun a t ht => ?_⟩
  obtain ⟨-, rfl⟩ := Prod.mk.inj ht
  exact ⟨hn, hj⟩

theorem here {f g : Kind → Rule α}
    (hf : ∀ i, n ≤ i → i ≤ p.size → p.AlikeAt i n (f (p.kindAt i)) (g (p.kindAt i))) :
    p.Alike n (p.here >>= f) (q.here >>= g) := by
  intro i hn hi s hs
  have hq : (q.here >>= g) s = g (p.kindAt i) s := by
    rw [← hs, ← h.kindAt]
    rfl
  have hp : (p.here >>= f) s = f (p.kindAt i) s := by
    rw [← hs]
    rfl
  rw [hp, hq]
  exact hf i hn hi s hs

/-- Whether a token stands at the cursor; if so, the cursor is not at the end. -/
theorem whenAt {k : Kind} (hk : k ≠ .stop) {x x' y y' : Rule α}
    (hx : i < p.size → p.AlikeAt i n x x') (hy : p.AlikeAt i n y y') :
    p.AlikeAt i n (p.at? k >>= fun b => if b then x else y) (q.at? k >>= fun b => if b then x' else y') := by
  intro s hs
  have hq : (q.at? k >>= fun b => if b then x' else y') s = (if p.kindAt i == k then x' else y') s := by
    rw [← hs, ← h.kindAt]
    rfl
  have hp : (p.at? k >>= fun b => if b then x else y) s = (if p.kindAt i == k then x else y) s := by
    rw [← hs]
    rfl
  rw [hp, hq]
  refine AlikeAt.ite' (fun hkind => ?_) (fun _ => hy) s hs
  exact hx (lt_size_of_kindAt (eq_of_beq hkind) hk)

theorem whenAnyAt {kinds : List Kind} (hk : .stop ∉ kinds) {x x' y y' : Rule α}
    (hx : i < p.size → p.AlikeAt i n x x') (hy : p.AlikeAt i n y y') :
    p.AlikeAt i n (p.atAny? kinds >>= fun b => if b then x else y)
      (q.atAny? kinds >>= fun b => if b then x' else y') := by
  intro s hs
  have hq : (q.atAny? kinds >>= fun b => if b then x' else y') s =
      (if kinds.contains (p.kindAt i) then x' else y') s := by
    rw [← hs, ← h.kindAt]
    rfl
  have hp : (p.atAny? kinds >>= fun b => if b then x else y) s =
      (if kinds.contains (p.kindAt i) then x else y) s := by
    rw [← hs]
    rfl
  rw [hp, hq]
  refine AlikeAt.ite' (fun hkind => ?_) (fun _ => hy) s hs
  exact hx (lt_size_of_kindAt rfl fun h' => hk (h' ▸ List.contains_iff_mem.1 hkind))

theorem when {k : Kind} (hk : k ≠ .stop) {x x' y y' : Rule α}
    (hx : ∀ i, n ≤ i → i < p.size → p.AlikeAt i n x x') (hy : p.Alike n y y') :
    p.Alike n (p.at? k >>= fun b => if b then x else y) (q.at? k >>= fun b => if b then x' else y') :=
  fun i hn hi => h.whenAt hk (hx i hn) (hy i hn hi)

/-- A token that is there is taken. -/
theorem advance (hn : n ≤ i + 1) (hi : i < p.size) : p.AlikeAt i n p.advance q.advance := by
  intro s hs
  refine ⟨by simp only [Phrase.advance, hs, h.size, h.tokenAt hi], fun a t ht => ?_⟩
  simp only [Phrase.advance, hs, hi, if_true] at ht
  obtain ⟨-, rfl⟩ := Prod.mk.inj ht
  exact ⟨hn, hi⟩

theorem eatAt {k : Kind} (hk : k ≠ .stop) (hn : n ≤ i + 1) : p.AlikeAt i n (p.eat k) (q.eat k) :=
  h.whenAt hk (h.advance hn) (.fail _)

theorem eatAnyAt {kinds : List Kind} (hk : .stop ∉ kinds) (what : String) (hn : n ≤ i + 1) :
    p.AlikeAt i n (p.eatAny kinds what) (q.eatAny kinds what) :=
  h.whenAnyAt hk (h.advance hn) (.fail _)

theorem eat {k : Kind} (hk : k ≠ .stop) : p.Alike n (p.eat k) (q.eat k) :=
  fun _ hn _ => h.eatAt hk (Nat.le_succ_of_le hn)

theorem eatAny {kinds : List Kind} (hk : .stop ∉ kinds) (what : String) :
    p.Alike n (p.eatAny kinds what) (q.eatAny kinds what) :=
  fun _ hn _ => h.eatAnyAt hk what (Nat.le_succ_of_le hn)

/-- Behind the first token of a rule, there was one. -/
theorem opened {k : Kind} (hk : k ≠ .stop) (hn : n ≤ i) {f g : Token → Rule α}
    (hf : i < p.size → ∀ t, p.Alike n (f t) (g t)) :
    p.AlikeAt i n (p.eat k >>= f) (q.eat k >>= g) := by
  refine (h.eatAt hk (Nat.le_succ_of_le hn)).bind_of (P := i < p.size) ?_ hf (Nat.le_refl n)
  intro s a t hs ht
  obtain ⟨ts, htook, -, rfl⟩ := reads_eat hk i s a t hs ht
  exact htook.lt_size

/-- The same for a first token of several kinds, with the cursor behind it. -/
theorem openedAny {kinds : List Kind} (hk : .stop ∉ kinds) (what : String) (hn : n ≤ i + 1)
    {f g : Token → Rule α} (hf : i < p.size → ∀ t, p.Alike (i + 1) (f t) (g t)) :
    p.AlikeAt i n (p.eatAny kinds what >>= f) (q.eatAny kinds what >>= g) := by
  refine (h.eatAnyAt hk what (Nat.le_refl _)).bind_of (P := i < p.size) ?_ hf hn
  intro s a t hs ht
  obtain ⟨ts, htook, -, rfl⟩ := reads_eatAny hk i s a t hs ht
  exact htook.lt_size

theorem skipAny {kinds : List Kind} (hk : .stop ∉ kinds) :
    p.Alike n (p.skipAny kinds) (q.skipAny kinds) := by
  intro i hn hi
  refine h.whenAnyAt hk (fun hlt => ?_) (.pure' hn hi ())
  exact (h.advance (Nat.le_succ_of_le hn) hlt).bind' fun _ => .pure' ()

theorem complete {x y : Rule α} (hx : p.Alike n x y) : p.Alike n (p.complete x) (q.complete y) := by
  refine .attempt (.bind' hx fun a => ?_)
  intro i hn hi s hs
  have hq : (q.at? .stop >>= fun b => if b then pure a else Rule.fail Kind.stop.describe) s =
      (p.at? .stop >>= fun b => if b then pure a else Rule.fail Kind.stop.describe) s := by
    simp only [bind, Phrase.at?, h.kindAt]
  refine ⟨hq, fun b t ht => ?_⟩
  have hat : (p.at? .stop >>= fun b => if b then pure a else Rule.fail Kind.stop.describe) s =
      (if p.kindAt i == .stop then pure a else Rule.fail Kind.stop.describe : Rule α) s := by
    rw [← hs]
    rfl
  rw [hat] at ht
  exact (AlikeAt.ite' (fun _ => .pure' hn hi a) (fun _ => .fail _) s hs).2 b t ht

theorem firstComplete_cons {x y : Rule α} {xs ys : List (Rule α)} (hx : p.Alike n x y)
    (hxs : p.Alike n (p.firstComplete xs) (q.firstComplete ys)) :
    p.Alike n (p.firstComplete (x :: xs)) (q.firstComplete (y :: ys)) :=
  .firstOf_cons (h.complete hx) hxs

/-! Names and references. -/

theorem longName : p.Alike n p.longName q.longName := by
  refine .position fun start hn hi => ?_
  simp only [h.tokens]
  refine .ite' (fun _ => .fail _) fun hne => ?_
  have hlength := (List.takeWhile_prefix (l := p.tokens.drop start) fun t => t.kind == .identifier).length_le
  have hpos := List.length_pos_iff.2 fun hnil => hne (List.isEmpty_iff.2 hnil)
  rw [List.length_drop] at hlength
  have hlt : start < p.size := by
    simp only [Phrase.size]
    omega
  refine .moveTo (by omega) ?_ (.bind' (h.spanFrom hlt) fun _ => .pure' _)
  simp only [Phrase.size] at hi ⊢
  omega

theorem plainReference : p.Alike n p.plainReference q.plainReference :=
  .position fun _ hn _ => h.opened (by decide) hn fun hlt _ =>
    .bind' h.longName fun _ => .bind' (h.spanFrom hlt) fun _ => .pure' _

theorem typeName : p.Alike n p.typeName q.typeName := by
  refine .position fun start hn _ => ?_
  refine h.openedAny (by decide) _ (Nat.le_succ_of_le hn) fun hlt _ => ?_
  exact .bind' h.longName fun _ => .bind' (h.spanFrom hlt) fun _ => .pure' _

theorem possessions {start : Nat} (hstart : start < p.size) (fuel : Nat) (r : Reference) :
    p.Alike n (p.possessions start fuel r) (q.possessions start fuel r) := by
  induction fuel generalizing r with
  | zero => exact .pure' r
  | succ fuel ih =>
    refine h.when (by decide) (fun before hn hlt => .position ?_) (.pure' r)
    refine (h.advance (Nat.le_succ_of_le hn) hlt).bind' fun _ => .bind' (h.skipAny (by decide)) fun _ => ?_
    -- an apostrophe without a name is left
    refine .outcome h.longName (fun name => ?_) fun _ => .moveTo hn (Nat.le_of_lt hlt) (.pure' r)
    exact .bind' (h.spanFrom hstart) fun _ => ih _

/-- The owner behind an `of` is read where there is a further token. -/
theorem ownership {x y : Rule Reference} (hx : n + 1 < p.size → p.Alike n x y) (r : Reference) :
    p.Alike n (p.ownership x r) (q.ownership y r) := by
  refine .position fun before hn hi => ?_
  simp only [h.kindAt]
  refine .ite' (fun hof => ?_) fun _ => .pure' hn hi r
  rw [Bool.and_eq_true] at hof
  have hlt : before < p.size := lt_size_of_kindAt (eq_of_beq hof.1) (by decide)
  have hnext : before + 1 < p.size := by
    refine lt_size_of_kindAt rfl fun hstop => ?_
    rw [hstop] at hof
    exact absurd hof.2 (by decide)
  refine (h.advance (Nat.le_succ_of_le hn) hlt).bind' fun _ => ?_
  exact .outcome (hx (by omega)) (fun owner => .pure' _) fun _ => .moveTo hn hi (.pure' r)

/-- Behind the article of a reference there is less left. -/
theorem ownedName {x y : Rule Reference} (hx : ∀ m, n < m → m + 1 < p.size → p.Alike m x y) :
    p.Alike n (p.ownedName x) (q.ownedName y) := by
  refine .position fun start hn _ => ?_
  refine h.openedAny (by decide) _ (Nat.le_succ_of_le hn) fun hlt _ => .bind' h.longName fun _ => ?_
  refine .bind' (h.spanFrom hlt) fun _ => ?_
  rw [h.size]
  exact .bind' (h.possessions hlt _ _) fun r => h.ownership (hx _ (Nat.lt_succ_of_le hn)) r

theorem keptReference (room room' : Nat) {x y : Rule Reference} (hx : p.Alike n x y) :
    p.Alike n (p.keptReference room x) (q.keptReference room' y) := by
  rw [Phrase.keptReference_eq h.fresh, Phrase.keptReference_eq h.fresh']
  exact hx.attempt

/-- A level of `of` takes an article, so there are no more levels than tokens. -/
theorem referenceWithin {room room' : Nat}
    (hroom : room' = room ∨ p.size ≤ n + room + 1 ∧ p.size ≤ n + room' + 1) :
    p.Alike n (p.referenceWithin room) (q.referenceWithin room') := by
  induction room generalizing room' n with
  | zero =>
    cases room' with
    | zero => exact h.keptReference _ _ (h.ownedName fun _ _ _ => .fail _)
    | succ room' => exact h.keptReference _ _ (h.ownedName fun m hm hlt => by omega)
  | succ room ih =>
    cases room' with
    | zero => exact h.keptReference _ _ (h.ownedName fun m hm hlt => by omega)
    | succ room' => exact h.keptReference _ _ (h.ownedName fun m hm _ => (ih (by omega)).attempt)

theorem reference : p.Alike n p.reference q.reference :=
  h.referenceWithin (h.room.imp_right fun ⟨hp, hq⟩ => ⟨by omega, by omega⟩)

/-! Expressions. -/

theorem keptExpression (k : Kept) {x y : Rule Expr} (hx : p.Alike n x y) :
    p.Alike n (p.keptExpression k x) (q.keptExpression k y) := by
  rw [Phrase.keptExpression_eq h.fresh, Phrase.keptExpression_eq h.fresh']
  exact hx.attempt

theorem literal : p.Alike n p.literal q.literal := by
  refine .position fun i hn hi => ?_
  rcases Nat.lt_or_eq_of_le hi with hlt | rfl
  · have hadvance := h.advance (n := n) (Nat.le_succ_of_le hn) hlt
    simp only [h.tokenAt hlt]
    split
    · split
      · exact .fail _
      · refine hadvance.bind' fun _ => h.when (by decide) (fun j hn hlt => ?_) (.pure' _)
        exact (h.advance (Nat.le_succ_of_le hn) hlt).bind' fun _ => .pure' _
    · exact hadvance.bind' fun _ => .pure' _
    · split
      · exact .fail _
      · exact hadvance.bind' fun _ => .pure' _
    · split
      · exact .fail _
      · exact hadvance.bind' fun _ => .pure' _
    · exact hadvance.bind' fun _ => .pure' _
    · exact .fail _
  · have hstop : (p.tokenAt p.size).kind = .stop := kindAt_size
    have hstop' : (q.tokenAt p.size).kind = .stop := (h.kindAt p.size).trans kindAt_size
    simp only [hstop, hstop']
    exact .fail _

theorem literalOrSlot : p.Alike n p.literalOrSlot q.literalOrSlot := by
  refine .position fun start hn hi => ?_
  refine (h.literal start hn hi).bind_of (P := start < p.size) ?_ (fun hlt owner => ?_) (Nat.le_refl n)
  · intro s a t hs ht
    obtain ⟨ts, htook, hliteral⟩ := reads_literal start s a t hs ht
    have := htook.lt_and_le hliteral.ne_nil
    omega
  · refine .position fun next hn hi => ?_
    simp only [h.kindAt]
    refine .ite' (fun hslot => ?_) fun _ => .pure' hn hi owner
    rw [Bool.and_eq_true] at hslot
    have hnext : next < p.size := lt_size_of_kindAt (eq_of_beq hslot.1) (by decide)
    refine (h.advance (Nat.le_succ_of_le hn) hnext).bind' fun _ => .bind' h.longName fun _ => ?_
    exact .bind' (h.spanFrom hlt) fun _ => .pure' _

theorem primary : p.Alike n p.primary q.primary := by
  obtain ⟨x, hx⟩ := referenceWithin_eq_attempt h.fresh p.room
  obtain ⟨y, hy⟩ := referenceWithin_eq_attempt h.fresh' q.room
  have hreference := h.reference (n := n)
  rw [Phrase.reference, Phrase.reference, hx, hy] at hreference
  rw [Phrase.primary, Phrase.primary, Phrase.reference, Phrase.reference, hx, hy]
  refine .outcome_attempt hreference fun read => ?_
  cases read with
  | none => exact h.literalOrSlot
  | some r => exact .pure' _

theorem term : p.Alike n p.term q.term := by
  have hoperator : q.factorOperator = p.factorOperator := by
    funext i
    simp only [Phrase.factorOperator, h.kindAt]
  rw [Phrase.term, Phrase.term, hoperator, h.size]
  exact .bind' h.primary fun first => .joined finds_factorOperator h.primary _ _

theorem arithmetic : p.Alike n p.arithmetic q.arithmetic := by
  have hoperator : q.termOperator = p.termOperator := by
    funext i
    simp only [Phrase.termOperator, h.kindAt]
  rw [Phrase.arithmetic, Phrase.arithmetic, hoperator, h.size]
  exact h.keptExpression _ (.bind' h.term fun first => .joined finds_termOperator h.term _ _)

theorem comparison : p.Alike n p.comparison q.comparison := by
  intro i hn hi s hs
  have hq : q.comparison = p.comparison := by
    simp only [Phrase.comparison, h.kindAt]
  refine ⟨by rw [hq], fun a t ht => ?_⟩
  obtain ⟨ts, htook, -⟩ := reads_comparison i s a t hs ht
  have hsize := htook.1.length_le
  have hpos := htook.2
  rw [List.length_drop] at hsize
  simp only [Phrase.size] at hi ⊢
  omega

theorem compared : p.Alike n p.compared q.compared :=
  .bind' h.arithmetic fun _ => .bind' h.comparison fun _ => .bind' h.arithmetic fun _ => .pure' _

theorem expression : p.Alike n p.expression q.expression :=
  h.keptExpression _ (.firstOf_cons h.compared (.firstOf_cons h.arithmetic .firstOf_nil))

theorem arithmeticPhrase (inPlace : Bool) :
    p.Alike n (p.arithmeticPhrase inPlace) (q.arithmeticPhrase inPlace) := by
  refine .position fun start hn _ => ?_
  have hlt {k : Kind} (hkind : p.kindAt start = k) (hk : k ≠ .stop) := lt_size_of_kindAt hkind hk
  have hadvance (hlt : start < p.size) := h.advance (n := n) (Nat.le_succ_of_le hn) hlt
  have hsum (op : MathOp) {preposition : Kind} (hk : preposition ≠ .stop) (hlt : start < p.size) :
      p.AlikeAt start n
        (do let _ ← p.advance; let operand ← p.expression; let _ ← p.eat preposition
            let target ← p.reference
            pure (Expr.update inPlace op operand target (← p.spanFrom start)))
        (do let _ ← q.advance; let operand ← q.expression; let _ ← q.eat preposition
            let target ← q.reference
            pure (Expr.update inPlace op operand target (← q.spanFrom start))) :=
    (hadvance hlt).bind' fun _ => .bind' h.expression fun _ => .bind' (h.eat hk) fun _ =>
      .bind' h.reference fun _ => .bind' (h.spanFrom hlt) fun _ => .pure' _
  have hfactor (op : MathOp) (hlt : start < p.size) :
      p.AlikeAt start n
        (do let _ ← p.advance; let target ← p.reference; let _ ← p.eat .byWord
            let operand ← p.expression
            pure (Expr.update inPlace op operand target (← p.spanFrom start)))
        (do let _ ← q.advance; let target ← q.reference; let _ ← q.eat .byWord
            let operand ← q.expression
            pure (Expr.update inPlace op operand target (← q.spanFrom start))) :=
    (hadvance hlt).bind' fun _ => .bind' h.reference fun _ => .bind' (h.eat (by decide)) fun _ =>
      .bind' h.expression fun _ => .bind' (h.spanFrom hlt) fun _ => .pure' _
  simp only [h.kindAt]
  split
  · next hkind => exact hsum .plus (by decide) (hlt hkind (by decide))
  · next hkind => exact hsum .minus (by decide) (hlt hkind (by decide))
  · next hkind => exact hfactor .multiply (hlt hkind (by decide))
  · next hkind => exact hfactor .divide (hlt hkind (by decide))
  · exact .fail _

theorem assignment : p.Alike n p.assignment q.assignment := by
  refine .position fun start hn _ => h.whenAt (by decide) (fun hlt => ?_) ?_
  · refine (h.advance (Nat.le_succ_of_le hn) hlt).bind' fun _ => .bind' h.expression fun _ => ?_
    refine .bind' (h.eatAny (by decide) _) fun _ => .bind' h.reference fun _ => ?_
    exact .bind' (h.spanFrom hlt) fun _ => .pure' _
  · refine h.opened (by decide) hn fun hlt _ => .bind' h.reference fun _ => ?_
    refine .bind' (h.eatAny (by decide) _) fun _ => .bind' (h.skipAny (by decide)) fun _ => ?_
    exact .bind' h.expression fun _ => .bind' (h.spanFrom hlt) fun _ => .pure' _

/-! Declarations. -/

theorem initializer : p.Alike n p.initializer q.initializer :=
  .bind' (h.eat (by decide)) fun _ => .bind' (h.skipAny (by decide)) fun _ => h.expression

theorem variableDeclaration : p.Alike n p.variableDeclaration q.variableDeclaration := by
  refine .position fun start hn _ => h.opened (by decide) hn fun hlt _ => .bind' h.longName fun _ => ?_
  refine .bind' (h.eatAny (by decide) _) fun _ => .bind' h.typeName fun _ => ?_
  refine .outcome_attempt h.initializer.attempt fun _ => ?_
  exact .bind' (h.spanFrom hlt) fun _ => .pure' _

theorem variableStatement : p.Alike n p.variableStatement q.variableStatement :=
  .bind' h.variableDeclaration fun _ => .pure' _

theorem unitAlias : p.Alike n p.unitAlias q.unitAlias := by
  refine .position fun start hn _ => h.opened (by decide) hn fun hlt _ => .bind' h.longName fun _ => ?_
  refine .bind' (h.eat (by decide)) fun _ => .bind' (h.eat (by decide)) fun amount => ?_
  split
  · exact .fail _
  · exact .bind' (h.eat (by decide)) fun _ => .bind' (h.spanFrom hlt) fun _ => .pure' _

theorem constantDeclaration : p.Alike n p.constantDeclaration q.constantDeclaration := by
  refine .position fun start hn _ => h.opened (by decide) hn fun hlt _ => .bind' h.longName fun _ => ?_
  refine .bind' (h.eat (by decide)) fun _ => .bind' h.literal fun _ => ?_
  exact .bind' (h.spanFrom hlt) fun _ => .pure' _

theorem pointerDeclaration : p.Alike n p.pointerDeclaration q.pointerDeclaration := by
  refine .position fun start hn _ => h.opened (by decide) hn fun hlt _ => .bind' h.longName fun _ => ?_
  refine .bind' (h.spanFrom hlt) fun _ => .bind' (h.eat (by decide)) fun _ => ?_
  refine .bind' (h.eat (by decide)) fun _ => .position fun i hn hi => ?_
  rcases Nat.lt_or_eq_of_le hi with hword | rfl
  · rw [h.tokenAt hword]
    refine .ite' (fun _ => ?_) fun _ => .fail _
    refine (h.advance (Nat.le_succ_of_le hn) hword).bind' fun _ => .bind' (h.eat (by decide)) fun _ => ?_
    exact .bind' h.typeName fun _ => .bind' (h.spanFrom hlt) fun _ => .pure' _
  · have hstop {t : Token} (ht : t.kind = .stop) : isPointerWord t = false := by
      rw [isPointerWord, ht]
      rfl
    rw [hstop kindAt_size, hstop ((h.kindAt p.size).trans kindAt_size)]
    exact .fail _

theorem slotAlias : p.Alike n p.slotAlias q.slotAlias := by
  refine h.here fun i hn _ => ?_
  split
  · next hkind =>
    refine (h.advance (Nat.le_succ_of_le hn) (lt_size_of_kindAt hkind (by decide))).bind' fun _ => ?_
    exact .bind' (h.skipAny (by decide)) fun _ => .bind' h.longName fun _ => .pure' _
  · next hkind =>
    refine (h.advance (Nat.le_succ_of_le hn) (lt_size_of_kindAt hkind (by decide))).bind' fun _ => ?_
    exact .bind' (h.eat (by decide)) fun _ => .bind' h.longName fun _ => .pure' _
  · exact .fail _

theorem slot : p.Alike n p.slot q.slot := by
  refine .position fun start hn _ => ?_
  refine (h.openedAny (by decide) _ (Nat.le_succ _) fun hlt _ => ?_).mono hn
  refine .bind' h.longName fun _ => .outcome_attempt h.slotAlias.attempt fun _ => ?_
  exact .bind' (h.spanFrom hlt) fun _ => .pure' _

theorem moreSlots (fuel : Nat) : p.Alike n (p.moreSlots fuel) (q.moreSlots fuel) := by
  induction fuel with
  | zero => exact .pure' []
  | succ fuel ih =>
    refine .position fun before hn hi => ?_
    refine (h.skipAny (by decide) before hn hi).bind' fun _ => .bind' (h.skipAny (by decide)) fun _ => ?_
    refine .position fun i hn' hi' => .ite' (fun _ => .pure' hn' hi' []) fun _ => ?_
    refine Alike.outcome h.slot (fun next => .bind' ih fun _ => .pure' _) ?_ i hn' hi'
    exact fun _ => .moveTo hn hi (.pure' [])

theorem slotList : p.Alike n p.slotList q.slotList := by
  refine .bind' h.slot fun first => ?_
  rw [h.size]
  exact .bind' (h.moreSlots _) fun _ => .pure' _

theorem shapeDeclaration : p.Alike n p.shapeDeclaration q.shapeDeclaration := by
  refine .position fun start hn _ => h.opened (by decide) hn fun hlt _ => .bind' h.longName fun _ => ?_
  refine .bind' (h.eat (by decide)) fun _ => .bind' h.typeName fun _ => h.when (by decide) ?_ ?_
  · intro i hn hi
    refine (h.advance (Nat.le_succ_of_le hn) hi).bind' fun _ => .bind' h.slotList fun _ => ?_
    exact .bind' (h.spanFrom hlt) fun _ => .pure' _
  · exact .bind' (h.spanFrom hlt) fun _ => .pure' _

theorem shapeOfSlots : p.Alike n p.shapeOfSlots q.shapeOfSlots := by
  refine .position fun start hn _ => h.opened (by decide) hn fun hlt _ => .bind' h.longName fun _ => ?_
  refine .bind' (h.eat (by decide)) fun _ => .bind' h.slotList fun _ => ?_
  exact .bind' (h.spanFrom hlt) fun _ => .pure' _

end Resembles

end Phrase

end Prose.Grammar
