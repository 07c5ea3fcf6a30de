import Prose.Proofs.Grammar.DerivedSentence
import Prose.Proofs.Tree.Shift

/- Rules at another place. A phrase whose tokens stand some bytes further on is read by
   the same steps, with the same notes, and what its rules give stands that much further
   on. That is shown construct by construct, for phrases that keep no results. -/
namespace Prose.Grammar

open Rule

variable {α β γ δ : Type} {n : Nat}

namespace Rule

/-- From index `i` on, a rule does what another one does, and gives what that one gives,
    carried over. -/
def CarriesAt (i : Nat) (f : α → β) (x : Rule α) (y : Rule β) : Prop :=
  ∀ s, s.pos = i → y s = ((x s).1.map f, (x s).2)

/-- The same from everywhere on. -/
def Carries (f : α → β) (x : Rule α) (y : Rule β) : Prop := ∀ s, y s = ((x s).1.map f, (x s).2)

namespace Carries

variable {f : α → β} {x : Rule α} {y : Rule β}

theorem pure' (a : α) : Carries f (pure a) (pure (f a)) := fun _ => rfl

/-- What is carried over may be written in another way. -/
theorem pure_eq {a : α} {b : β} (h : b = f a) : Carries f (pure a) (pure b) := h ▸ pure' a

theorem fail (what : String) : Carries f (Rule.fail what) (Rule.fail what) := fun _ => rfl

theorem bindAt {i : Nat} {g : γ → δ} {u : Rule γ} {v : Rule δ} {k : γ → Rule α} {l : δ → Rule β}
    (hu : CarriesAt i g u v) (hk : ∀ a, Carries f (k a) (l (g a))) :
    CarriesAt i f (u >>= k) (v >>= l) := by
  intro s hs
  have hv := hu s hs
  rcases hus : u s with ⟨_ | a, t⟩ <;> rw [hus] at hv
  · rw [bind_none hus, bind_none hv]
    rfl
  · rw [bind_some hus, bind_some hv]
    exact hk a t

theorem bind' {g : γ → δ} {u : Rule γ} {v : Rule δ} {k : γ → Rule α} {l : δ → Rule β}
    (hu : Carries g u v) (hk : ∀ a, Carries f (k a) (l (g a))) : Carries f (u >>= k) (v >>= l) :=
  fun s => bindAt (fun t (_ : t.pos = s.pos) => hu t) hk s rfl

theorem positionAt {k : Nat → Rule α} {l : Nat → Rule β} (h : ∀ i, CarriesAt i f (k i) (l i)) :
    Carries f (Rule.position >>= k) (Rule.position >>= l) := fun s => h s.pos s rfl

theorem position {k : Nat → Rule α} {l : Nat → Rule β} (h : ∀ i, Carries f (k i) (l i)) :
    Carries f (Rule.position >>= k) (Rule.position >>= l) := positionAt fun i s _ => h i s

theorem moveTo (i : Nat) {k : Unit → Rule α} {l : Unit → Rule β} (h : Carries f (k ()) (l ())) :
    Carries f (Rule.moveTo i >>= k) (Rule.moveTo i >>= l) := fun s => h (s.moved i)

theorem outcome (h : Carries f x y) : Carries (Option.map f) (Rule.outcome x) (Rule.outcome y) := by
  intro s
  rw [outcome_eq, outcome_eq, h s]
  rfl

theorem attempt (h : Carries f x y) : Carries f (Rule.attempt x) (Rule.attempt y) := by
  intro s
  have hy := h s
  rcases hxs : x s with ⟨_ | a, t⟩ <;> rw [hxs] at hy
  · rw [attempt_none hxs, attempt_none hy]
    rfl
  · rw [attempt_some hxs, attempt_some hy]
    rfl

theorem ite' {c : Prop} [Decidable c] {x' : Rule α} {y' : Rule β} (hx : c → Carries f x y)
    (hx' : ¬c → Carries f x' y') : Carries f (if c then x else x') (if c then y else y') := by
  split
  · next h => exact hx h
  · next h => exact hx' h

theorem firstOf_nil : Carries f (firstOf []) (firstOf []) := fun _ => rfl

theorem firstOf_cons {xs : List (Rule α)} {ys : List (Rule β)} (hx : Carries f x y)
    (hxs : Carries f (firstOf xs) (firstOf ys)) : Carries f (firstOf (x :: xs)) (firstOf (y :: ys)) := by
  intro s
  have hy := hx.attempt s
  rcases hs : Rule.attempt x s with ⟨_ | a, t⟩ <;> rw [hs] at hy
  · rw [firstOf_cons_none hs, firstOf_cons_none hy]
    exact hxs t
  · rw [firstOf_cons_some hs, firstOf_cons_some hy]
    rfl

/-- Operands joined by operations at the same indexes. -/
theorem joined {operator : Nat → Option (MathOp × Nat)} {x y : Rule Expr}
    (hx : Carries (Expr.shift n) x y) (fuel : Nat) (left : Expr) :
    Carries (Expr.shift n) (Phrase.joined operator x fuel left)
      (Phrase.joined operator y fuel (left.shift n)) := by
  induction fuel generalizing left with
  | zero => exact .pure' left
  | succ fuel ih =>
    refine .position fun before => ?_
    split
    · exact .pure' left
    · next op _ _ =>
      refine .moveTo _ (.bind' hx.outcome ?_)
      intro read
      cases read with
      | none => exact .moveTo before (.pure' left)
      | some right =>
        have hmath : (mathExpr op left right).shift n = mathExpr op (left.shift n) (right.shift n) := by
          simp only [mathExpr, Expr.shift, Expr.span_shift, Span.shift_cover]
        simp only [Option.map_some, ← hmath]
        exact ih _

end Carries

end Rule

/-- The phrase stands `n` bytes further on in `q` than in `p`, and so do the branches that
    are read of its tokens. -/
structure Phrase.Moved (n : Nat) (p q : Phrase) : Prop where
  fresh : p.memoize = false
  fresh' : q.memoize = false
  tokens : q.tokens = p.tokens.map (Token.shift n)
  stopAt : q.stopAt = p.stopAt + n
  room : q.room = p.room
  significant : ∀ t ∈ p.tokens, t.isSignificant
  branch : ∀ ts, ts ≠ [] → (∀ t ∈ ts, t.isSignificant) →
    q.branch (ts.map (Token.shift n)) = ((p.branch ts).1.shift n, (p.branch ts).2)

namespace Phrase.Moved

variable {p q : Phrase} (h : p.Moved n q) {f : α → β}

/-! Tokens. -/

include h

theorem size : q.size = p.size := by simp only [Phrase.size, h.tokens, List.length_map]

theorem tokenAt (i : Nat) : q.tokenAt i = (p.tokenAt i).shift n := by
  simp only [Phrase.tokenAt, h.tokens, List.getElem?_map, Phrase.stop, h.stopAt]
  cases p.tokens[i]? <;> rfl

theorem kindAt (i : Nat) : q.kindAt i = p.kindAt i := by simp only [Phrase.kindAt, h.tokenAt, Token.shift]

theorem between (i j : Nat) : q.between i j = (p.between i j).map (Token.shift n) := by
  simp only [Phrase.between, h.tokens, List.map_take, List.map_drop]

theorem find? (i : Nat) (kinds : List Kind) : q.find? i kinds = p.find? i kinds := by
  simp only [Phrase.find?, h.tokens, ← List.map_drop, List.findIdx?_map]
  rfl

theorem spanBetween (i j : Nat) : q.spanBetween i j = (p.spanBetween i j).shift n := by
  simp only [Phrase.spanBetween, h.tokenAt, Span.shift, Token.shift]
  split <;> simp only [Nat.add_max_add_right]

theorem here {k : Kind → Rule α} {l : Kind → Rule β} (hk : ∀ c, Carries f (k c) (l c)) :
    Carries f (p.here >>= k) (q.here >>= l) :=
  fun s => (congrArg (fun c => l c s) (h.kindAt s.pos)).trans (hk _ s)

theorem at? (c : Kind) {k : Bool → Rule α} {l : Bool → Rule β} (hk : ∀ b, Carries f (k b) (l b)) :
    Carries f (p.at? c >>= k) (q.at? c >>= l) :=
  fun s => (congrArg (fun d => l (d == c) s) (h.kindAt s.pos)).trans (hk _ s)

theorem atAny? (kinds : List Kind) {k : Bool → Rule α} {l : Bool → Rule β}
    (hk : ∀ b, Carries f (k b) (l b)) : Carries f (p.atAny? kinds >>= k) (q.atAny? kinds >>= l) :=
  fun s => (congrArg (fun d => l (kinds.contains d) s) (h.kindAt s.pos)).trans (hk _ s)

theorem advance : Carries (Token.shift n) p.advance q.advance := by
  intro s
  simp only [Phrase.advance, h.tokenAt, h.size]
  rfl

theorem skipAny (kinds : List Kind) : Carries id (p.skipAny kinds) (q.skipAny kinds) :=
  h.atAny? kinds fun _ => .ite' (fun _ => .bind' h.advance fun _ => .pure' ()) fun _ => .pure' ()

theorem eat (c : Kind) : Carries (Token.shift n) (p.eat c) (q.eat c) :=
  h.at? c fun _ => .ite' (fun _ => h.advance) fun _ => .fail _

theorem eatAny (kinds : List Kind) (what : String) :
    Carries (Token.shift n) (p.eatAny kinds what) (q.eatAny kinds what) :=
  h.atAny? kinds fun _ => .ite' (fun _ => h.advance) fun _ => .fail _

theorem spanFrom (i : Nat) : Carries (Span.shift n) (p.spanFrom i) (q.spanFrom i) := by
  intro s
  simp only [Phrase.spanFrom, h.spanBetween]
  rfl

theorem complete {x : Rule α} {y : Rule β} (hx : Carries f x y) :
    Carries f (p.complete x) (q.complete y) :=
  .attempt (.bind' hx fun a => h.at? .stop fun _ => .ite' (fun _ => .pure' a) fun _ => .fail _)

theorem firstComplete_cons {x : Rule α} {y : Rule β} {xs : List (Rule α)} {ys : List (Rule β)}
    (hx : Carries f x y) (hxs : Carries f (p.firstComplete xs) (q.firstComplete ys)) :
    Carries f (p.firstComplete (x :: xs)) (q.firstComplete (y :: ys)) :=
  .firstOf_cons (h.complete hx) hxs

/-! Names and references. -/

theorem longName : Carries (Prod.map id (Span.shift n)) p.longName q.longName := by
  refine .position fun start => ?_
  have hwords : (q.tokens.drop start).takeWhile (fun t => t.kind == .identifier) =
      ((p.tokens.drop start).takeWhile fun t => t.kind == .identifier).map (Token.shift n) := by
    rw [h.tokens, ← List.map_drop, List.takeWhile_map]
    rfl
  simp only [hwords, List.isEmpty_map, List.length_map, Token.joinTexts_shift]
  refine .ite' (fun _ => .fail _) fun _ => .moveTo _ (.bind' (h.spanFrom start) fun _ => ?_)
  exact .pure' _

theorem plainReference : Carries (Reference.shift n) p.plainReference q.plainReference :=
  .position fun start => .bind' (h.eat _) fun _ => .bind' h.longName fun _ =>
    .bind' (h.spanFrom start) fun _ => .pure' _

theorem typeName : Carries (TypeName.shift n) p.typeName q.typeName :=
  .position fun start => .bind' (h.eatAny _ _) fun _ => .bind' h.longName fun _ =>
    .bind' (h.spanFrom start) fun _ => .pure' _

theorem possessions (start fuel : Nat) (r : Reference) :
    Carries (Reference.shift n) (p.possessions start fuel r) (q.possessions start fuel (r.shift n)) := by
  induction fuel generalizing r with
  | zero => exact .pure' r
  | succ fuel ih =>
    refine h.at? _ fun _ => .ite' (fun _ => .position fun before => ?_) fun _ => .pure' r
    refine .bind' h.advance fun _ => .bind' (h.skipAny _) fun _ => .bind' h.longName.outcome ?_
    intro read
    cases read with
    | none => exact .moveTo before (.pure' r)
    | some name => exact .bind' (h.spanFrom start) fun _ => ih _

theorem ownership {x y : Rule Reference} (hx : Carries (Reference.shift n) x y) (r : Reference) :
    Carries (Reference.shift n) (p.ownership x r) (q.ownership y (r.shift n)) := by
  refine .position fun before => ?_
  simp only [h.kindAt]
  refine .ite' (fun _ => .bind' h.advance fun _ => .bind' hx.outcome ?_) fun _ => .pure' r
  intro read
  cases read with
  | none => exact .moveTo before (.pure' r)
  | some owner => exact .pure_eq (Reference.shift_withRootOwner r owner).symm

theorem ownedName {x y : Rule Reference} (hx : Carries (Reference.shift n) x y) :
    Carries (Reference.shift n) (p.ownedName x) (q.ownedName y) := by
  refine .position fun start => .bind' (h.eatAny _ _) fun _ => .bind' h.longName fun _ => ?_
  refine .bind' (h.spanFrom start) fun _ => ?_
  rw [h.size]
  exact .bind' (h.possessions _ _ _) fun r => h.ownership hx r

theorem keptReference (room : Nat) {x y : Rule Reference} (hx : Carries (Reference.shift n) x y) :
    Carries (Reference.shift n) (p.keptReference room x) (q.keptReference room y) := by
  rw [Phrase.keptReference_eq h.fresh, Phrase.keptReference_eq h.fresh']
  exact hx.attempt

theorem referenceWithin (room : Nat) :
    Carries (Reference.shift n) (p.referenceWithin room) (q.referenceWithin room) := by
  induction room with
  | zero => exact h.keptReference _ (h.ownedName (.fail _))
  | succ room ih => exact h.keptReference _ (h.ownedName ih.attempt)

theorem reference : Carries (Reference.shift n) p.reference q.reference := by
  rw [Phrase.reference, Phrase.reference, h.room]
  exact h.referenceWithin p.room

/-! Expressions. -/

theorem keptExpression (k : Kept) {x y : Rule Expr} (hx : Carries (Expr.shift n) x y) :
    Carries (Expr.shift n) (p.keptExpression k x) (q.keptExpression k y) := by
  rw [Phrase.keptExpression_eq h.fresh, Phrase.keptExpression_eq h.fresh']
  exact hx.attempt

theorem literal : Carries (Expr.shift n) p.literal q.literal := by
  refine .position fun i => ?_
  simp only [h.tokenAt]
  have hkind : ((p.tokenAt i).shift n).kind = (p.tokenAt i).kind := rfl
  have htext : ((p.tokenAt i).shift n).text = (p.tokenAt i).text := rfl
  rw [hkind, htext]
  split
  · split
    · exact .fail _
    · refine .bind' h.advance fun _ => h.at? _ fun _ => .ite' (fun _ => ?_) fun _ => .pure' _
      refine .bind' h.advance fun inch => .pure_eq ?_
      simp only [Expr.shift, Span.shift_cover, Span.ofToken_shift]
  · exact .bind' h.advance fun _ => .pure' _
  · split
    · exact .fail _
    · exact .bind' h.advance fun _ => .pure' _
  · split
    · exact .fail _
    · exact .bind' h.advance fun _ => .pure' _
  · exact .bind' h.advance fun _ => .pure' _
  · exact .fail _

theorem literalOrSlot : Carries (Expr.shift n) p.literalOrSlot q.literalOrSlot := by
  refine .position fun start => .bind' h.literal fun owner => .position fun next => ?_
  simp only [h.kindAt]
  refine .ite' (fun _ => .bind' h.advance fun _ => .bind' h.longName fun _ => ?_) fun _ => .pure' owner
  exact .bind' (h.spanFrom start) fun _ => .pure' _

theorem primary : Carries (Expr.shift n) p.primary q.primary := by
  refine .bind' h.reference.outcome ?_
  intro read
  cases read with
  | none => exact h.literalOrSlot
  | some r => exact .pure' _


theorem term : Carries (Expr.shift n) p.term q.term := by
  have hoperator : q.factorOperator = p.factorOperator := by
    funext i
    simp only [Phrase.factorOperator, h.kindAt]
  rw [Phrase.term, Phrase.term, hoperator, h.size]
  exact .bind' h.primary fun first => h.primary.joined _ _

theorem arithmetic : Carries (Expr.shift n) p.arithmetic q.arithmetic := by
  have hoperator : q.termOperator = p.termOperator := by
    funext i
    simp only [Phrase.termOperator, h.kindAt]
  rw [Phrase.arithmetic, Phrase.arithmetic, hoperator, h.size]
  exact h.keptExpression _ (.bind' h.term fun first => h.term.joined _ _)

theorem comparison : Carries id p.comparison q.comparison := by
  refine .position fun start => ?_
  simp only [h.kindAt]
  split
  · exact .moveTo _ (.pure' _)
  · exact .fail _

theorem compared : Carries (Expr.shift n) p.compared q.compared := by
  refine .bind' h.arithmetic fun first => .bind' h.comparison fun op => ?_
  refine .bind' h.arithmetic fun second => .pure_eq ?_
  simp only [Expr.shift, Expr.span_shift, Span.shift_cover]
  rfl

theorem expression : Carries (Expr.shift n) p.expression q.expression :=
  h.keptExpression _ (.firstOf_cons h.compared (.firstOf_cons h.arithmetic .firstOf_nil))

theorem arithmeticPhrase (inPlace : Bool) :
    Carries (Expr.shift n) (p.arithmeticPhrase inPlace) (q.arithmeticPhrase inPlace) := by
  refine .position fun start => ?_
  simp only [h.kindAt]
  split
  · refine .bind' h.advance fun _ => .bind' h.expression fun operand => .bind' (h.eat _) fun _ => ?_
    exact .bind' h.reference fun target => .bind' (h.spanFrom start) fun _ => .pure' _
  · refine .bind' h.advance fun _ => .bind' h.expression fun operand => .bind' (h.eat _) fun _ => ?_
    exact .bind' h.reference fun target => .bind' (h.spanFrom start) fun _ => .pure' _
  · refine .bind' h.advance fun _ => .bind' h.reference fun target => .bind' (h.eat _) fun _ => ?_
    exact .bind' h.expression fun operand => .bind' (h.spanFrom start) fun _ => .pure' _
  · refine .bind' h.advance fun _ => .bind' h.reference fun target => .bind' (h.eat _) fun _ => ?_
    exact .bind' h.expression fun operand => .bind' (h.spanFrom start) fun _ => .pure' _
  · exact .fail _

theorem assignment : Carries (Expr.shift n) p.assignment q.assignment := by
  refine .position fun start => h.at? _ fun _ => .ite' (fun _ => ?_) fun _ => ?_
  · refine .bind' h.advance fun _ => .bind' h.expression fun value => .bind' (h.eatAny _ _) fun _ => ?_
    exact .bind' h.reference fun target => .bind' (h.spanFrom start) fun _ => .pure' _
  · refine .bind' (h.eat _) fun _ => .bind' h.reference fun target => .bind' (h.eatAny _ _) fun _ => ?_
    refine .bind' (h.skipAny _) fun _ => .bind' h.expression fun value => ?_
    exact .bind' (h.spanFrom start) fun _ => .pure' _

/-! Declarations. -/

theorem initializer : Carries (Expr.shift n) p.initializer q.initializer :=
  .bind' (h.eat _) fun _ => .bind' (h.skipAny _) fun _ => h.expression

theorem variableDeclaration :
    Carries (VariableDeclaration.shift n) p.variableDeclaration q.variableDeclaration := by
  refine .position fun start => .bind' (h.eat _) fun _ => .bind' h.longName fun name => ?_
  refine .bind' (h.eatAny _ _) fun _ => .bind' h.typeName fun type => ?_
  refine .bind' h.initializer.attempt.outcome fun value => ?_
  exact .bind' (h.spanFrom start) fun _ => .pure' _

theorem variableStatement : Carries (Stmt.shift n) p.variableStatement q.variableStatement :=
  .bind' h.variableDeclaration fun _ => .pure' _

theorem unitAlias : Carries (Stmt.shift n) p.unitAlias q.unitAlias := by
  refine .position fun start => .bind' (h.eat _) fun _ => .bind' h.longName fun name => ?_
  refine .bind' (h.eat _) fun _ => .bind' (h.eat _) fun amount => ?_
  have htext : (amount.shift n).text = amount.text := rfl
  rw [htext]
  split
  · exact .fail _
  · exact .bind' (h.eat _) fun unit => .bind' (h.spanFrom start) fun _ => .pure' _

theorem constantDeclaration : Carries (Stmt.shift n) p.constantDeclaration q.constantDeclaration := by
  refine .position fun start => .bind' (h.eat _) fun _ => .bind' h.longName fun name => ?_
  refine .bind' (h.eat _) fun _ => .bind' h.literal fun value => ?_
  exact .bind' (h.spanFrom start) fun _ => .pure' _

theorem pointerDeclaration : Carries (Stmt.shift n) p.pointerDeclaration q.pointerDeclaration := by
  refine .position fun start => .bind' (h.eat _) fun _ => .bind' h.longName fun name => ?_
  refine .bind' (h.spanFrom start) fun _ => .bind' (h.eat _) fun _ => .bind' (h.eat _) fun _ => ?_
  refine .position fun i => ?_
  rw [h.tokenAt]
  refine .ite' (fun _ => .bind' h.advance fun _ => .bind' (h.eat _) fun _ => ?_) fun _ => .fail _
  exact .bind' h.typeName fun base => .bind' (h.spanFrom start) fun _ => .pure' _

theorem slotAlias : Carries id p.slotAlias q.slotAlias := by
  refine h.here fun c => ?_
  split
  · refine .bind' h.advance fun _ => .bind' (h.skipAny _) fun _ => ?_
    exact .bind' h.longName fun name => .pure' _
  · refine .bind' h.advance fun _ => .bind' (h.eat _) fun _ => ?_
    exact .bind' h.longName fun name => .pure' _
  · exact .fail _

theorem slot : Carries (Slot.shift n) p.slot q.slot := by
  refine .position fun start => .bind' (h.eatAny _ _) fun article => ?_
  refine .bind' h.longName fun name => .bind' h.slotAlias.attempt.outcome fun aliasFor => ?_
  refine .bind' (h.spanFrom start) fun _ => .pure_eq ?_
  rw [Option.map_id]
  rfl

theorem moreSlots (fuel : Nat) : Carries (List.map (Slot.shift n)) (p.moreSlots fuel) (q.moreSlots fuel) := by
  induction fuel with
  | zero => exact .pure' []
  | succ fuel ih =>
    refine .position fun before => .bind' (h.skipAny _) fun _ => .bind' (h.skipAny _) fun _ => ?_
    refine .position fun _ => .ite' (fun _ => .pure' []) fun _ => .bind' h.slot.outcome ?_
    intro read
    cases read with
    | none => exact .moveTo before (.pure' [])
    | some next => exact .bind' ih fun later => .pure' _

theorem slotList : Carries (List.map (Slot.shift n)) p.slotList q.slotList := by
  refine .bind' h.slot fun first => ?_
  rw [h.size]
  exact .bind' (h.moreSlots _) fun later => .pure' _

theorem shapeDeclaration : Carries (Stmt.shift n) p.shapeDeclaration q.shapeDeclaration := by
  refine .position fun start => .bind' (h.eat _) fun _ => .bind' h.longName fun name => ?_
  refine .bind' (h.eat _) fun _ => .bind' h.typeName fun base => h.at? _ fun _ => .ite' ?_ ?_
  · intro _
    refine .bind' h.advance fun _ => .bind' h.slotList fun slots => ?_
    exact .bind' (h.spanFrom start) fun _ => .pure' _
  · intro _
    exact .bind' (h.spanFrom start) fun _ => .pure' _

theorem shapeOfSlots : Carries (Stmt.shift n) p.shapeOfSlots q.shapeOfSlots := by
  refine .position fun start => .bind' (h.eat _) fun _ => .bind' h.longName fun name => ?_
  refine .bind' (h.eat _) fun _ => .bind' h.slotList fun slots => ?_
  exact .bind' (h.spanFrom start) fun _ => .pure' _

end Phrase.Moved

end Prose.Grammar
