import Prose.Proofs.Grammar.Afresh
import Prose.Proofs.Grammar.DerivedSentence
import Prose.Proofs.Grammar.Phrases

/- How rules are put together. Every rule of the grammar is built from a few combinators; it
   only ever moves the cursor to an index inside of the phrase, and, unless it is tried for its
   outcome or for another rule behind it, it fails only after a note that says why. A rule that
   is known to be built so can be followed through any of its runs, so what is to be shown of
   all runs is shown once for each combinator and not for each rule. -/
namespace Prose.Grammar

open Rule

variable {α β : Type} {p : Phrase} {loud : Bool} {x : Rule α} {xs : List (Rule α)}

/-- How a rule is put together for a phrase. The cursor stays inside of the phrase. A loud rule
    fails only after a note, if every kept failure of expressions and references was noted. -/
inductive Composed (p : Phrase) : {α : Type} → Bool → Rule α → Prop where
  | look {α : Type} {loud : Bool} {f : Nat → Option α} {g : Nat → Nat}
      (hf : loud = true → ∀ i, (f i).isSome) (hg : ∀ i ≤ p.size, g i ≤ p.size) :
      Composed p loud fun s => (f s.pos, { s with pos := g s.pos })
  | fail {α : Type} {loud : Bool} (what : String) : Composed p loud (Rule.fail what : Rule α)
  | position {α : Type} {loud : Bool} {f : Nat → Rule α} (hf : ∀ i ≤ p.size, Composed p loud (f i)) :
      Composed p loud (Rule.position >>= f)
  | bind {α β : Type} {loud : Bool} {x : Rule α} {f : α → Rule β} (hx : Composed p loud x)
      (hf : ∀ a, Composed p loud (f a)) : Composed p loud (x >>= f)
  | attempt {α : Type} {loud : Bool} {x : Rule α} (hx : Composed p loud x) :
      Composed p loud (Rule.attempt x)
  | outcome {α : Type} {loud : Bool} {x : Rule α} (hx : Composed p false x) :
      Composed p loud (Rule.outcome x)
  | nothing {α : Type} : Composed p false (firstOf ([] : List (Rule α)))
  | first {α : Type} {loud : Bool} {x : Rule α} {xs : List (Rule α)} (hx : Composed p loud x)
      (hxs : Composed p false (firstOf xs)) : Composed p loud (firstOf (x :: xs))
  | later {α : Type} {loud : Bool} {x : Rule α} {xs : List (Rule α)} (hx : Composed p false x)
      (hxs : Composed p loud (firstOf xs)) : Composed p loud (firstOf (x :: xs))
  | keptExpression {loud : Bool} {k : Kept} {x : Rule Expr} (hx : Composed p true x) :
      Composed p loud (p.keptExpression k x)
  | keptReference {loud : Bool} {room : Nat} {x : Rule Reference} (hx : Composed p true x) :
      Composed p loud (p.keptReference room x)

/-! Indices inside of the phrase. -/

namespace Phrase

variable {i j : Nat} {ts : List Token}

theorem Took.le_size (h : p.Took i ts j) (hi : i ≤ p.size) : j ≤ p.size := by
  rcases eq_or_ne ts [] with rfl | hne
  · rw [h.2]
    exact hi
  · exact (h.lt_and_le hne).2

theorem length_between_le (i j : Nat) : (p.between i j).length ≤ p.size - i := by
  rw [between, List.length_take, List.length_drop]
  exact Nat.min_le_right _ _

/-- Where a phrase cannot be split stands one of its tokens. -/
theorem lt_size_of_markerPhrase {openings : List Kind} {n : Nat}
    (h : markerPhrase openings (p.between i j) = .error n) : i + n < p.size := by
  obtain ⟨⟨t, ht, -⟩, -⟩ := firstUnfit_of_markerPhrase h
  have hlt := (List.getElem?_eq_some_iff.1 ht).1
  have hle := p.length_between_le i j
  omega

end Phrase

namespace Composed

/-! Looking at tokens and taking them. -/

theorem pure' (a : α) : Composed p loud (pure a) :=
  .look (f := fun _ => some a) (g := id) (fun _ _ => rfl) fun _ h => h

theorem moveTo {i : Nat} (hi : i ≤ p.size) : Composed p loud (Rule.moveTo i) :=
  .look (f := fun _ => some ()) (g := fun _ => i) (fun _ _ => rfl) fun _ _ => hi

theorem ite' {c : Prop} [Decidable c] {y : Rule α} (hx : c → Composed p loud x)
    (hy : ¬c → Composed p loud y) : Composed p loud (if c then x else y) := by
  split
  · next h => exact hx h
  · next h => exact hy h

theorem firstOf (hxs : ∀ x ∈ xs, Composed p false x) : Composed p false (firstOf xs) := by
  induction xs with
  | nil => exact .nothing
  | cons x xs ih =>
    rw [List.forall_mem_cons] at hxs
    exact .later hxs.1 (ih hxs.2)

theorem here : Composed p loud p.here :=
  .look (f := fun i => some (p.kindAt i)) (g := id) (fun _ _ => rfl) fun _ h => h

theorem at? (k : Kind) : Composed p loud (p.at? k) :=
  .look (f := fun i => some (p.kindAt i == k)) (g := id) (fun _ _ => rfl) fun _ h => h

theorem atAny? (kinds : List Kind) : Composed p loud (p.atAny? kinds) :=
  .look (f := fun i => some (kinds.contains (p.kindAt i))) (g := id) (fun _ _ => rfl) fun _ h => h

theorem advance : Composed p loud p.advance := by
  refine .look (f := fun i => some (p.tokenAt i)) (g := fun i => if i < p.size then i + 1 else i)
    (fun _ _ => rfl) fun i hi => ?_
  split
  · next h => exact h
  · exact hi

theorem spanFrom (first : Nat) : Composed p loud (p.spanFrom first) :=
  .look (f := fun i => some (p.spanBetween first i)) (g := id) (fun _ _ => rfl) fun _ h => h

theorem skipAny (kinds : List Kind) : Composed p loud (p.skipAny kinds) := by
  unfold Phrase.skipAny
  exact .bind (.atAny? kinds) fun _ =>
    .ite' (fun _ => .bind .advance fun _ => .pure' _) fun _ => .pure' _

theorem eat (k : Kind) : Composed p loud (p.eat k) := by
  unfold Phrase.eat
  exact .bind (.at? k) fun _ => .ite' (fun _ => .advance) fun _ => .fail _

theorem eatAny (kinds : List Kind) (what : String) : Composed p loud (p.eatAny kinds what) := by
  unfold Phrase.eatAny
  exact .bind (.atAny? kinds) fun _ => .ite' (fun _ => .advance) fun _ => .fail _

theorem complete (h : Composed p loud x) : Composed p loud (p.complete x) := by
  unfold Phrase.complete
  refine .attempt (.bind h fun a => ?_)
  exact .bind (.at? _) fun _ => .ite' (fun _ => .pure' a) fun _ => .fail _

/-- Of some rules that have to take all tokens, the first decides whether they are loud. -/
theorem firstComplete (hx : Composed p loud x) (hxs : ∀ y ∈ xs, Composed p false y) :
    Composed p loud (p.firstComplete (x :: xs)) :=
  .first hx.complete (.firstOf (List.forall_mem_map.2 fun y hy => (hxs y hy).complete))

/-! Names and references. -/

theorem longName : Composed p loud p.longName := by
  unfold Phrase.longName
  refine .position fun start hstart => .ite' (fun _ => .fail _) fun _ => ?_
  have htook : p.Took start ((p.tokens.drop start).takeWhile fun t => t.kind == .identifier) _ :=
    ⟨List.takeWhile_prefix _, rfl⟩
  exact .bind (.moveTo (htook.le_size hstart)) fun _ => .bind (.spanFrom start) fun _ => .pure' _

theorem plainReference : Composed p loud p.plainReference := by
  unfold Phrase.plainReference
  refine .position fun start _ => .bind (.eat _) fun _ => .bind .longName fun name => ?_
  exact .bind (.spanFrom start) fun _ => .pure' _

theorem typeName : Composed p loud p.typeName := by
  unfold Phrase.typeName
  refine .position fun start _ => .bind (.eatAny _ _) fun article => ?_
  exact .bind .longName fun name => .bind (.spanFrom start) fun _ => .pure' _

theorem possessions (start : Nat) (fuel : Nat) (r : Reference) :
    Composed p loud (p.possessions start fuel r) := by
  induction fuel generalizing r with
  | zero => exact .pure' r
  | succ fuel ih =>
    unfold Phrase.possessions
    refine .bind (.at? _) fun _ => .ite' (fun _ => .position fun before hbefore => ?_) fun _ => .pure' r
    refine .bind .advance fun _ => .bind (.skipAny _) fun _ => .bind (.outcome .longName) ?_
    intro read
    cases read with
    | none => exact .bind (.moveTo hbefore) fun _ => .pure' r
    | some name => exact .bind (.spanFrom start) fun _ => ih _

theorem ownership {x : Rule Reference} (h : Composed p false x) (r : Reference) :
    Composed p loud (p.ownership x r) := by
  unfold Phrase.ownership
  refine .position fun before hbefore => .ite' (fun _ => .bind .advance fun _ => ?_) fun _ => .pure' r
  refine .bind (.outcome h) ?_
  intro read
  cases read with
  | none => exact .bind (.moveTo hbefore) fun _ => .pure' r
  | some o => exact .pure' _

theorem ownedName {x : Rule Reference} (h : Composed p false x) : Composed p loud (p.ownedName x) := by
  unfold Phrase.ownedName
  refine .position fun start _ => .bind (.eatAny _ _) fun _ => .bind .longName fun name => ?_
  exact .bind (.spanFrom start) fun _ => .bind (.possessions _ _ _) fun r => .ownership h r

theorem referenceWithin (room : Nat) : Composed p loud (p.referenceWithin room) := by
  induction room generalizing loud with
  | zero => exact .keptReference (.ownedName (.fail _))
  | succ room ih => exact .keptReference (.ownedName (.attempt ih))

theorem reference : Composed p loud p.reference := .referenceWithin p.room

/-! Expressions. -/

theorem literal : Composed p loud p.literal := by
  unfold Phrase.literal
  refine .position fun i _ => ?_
  dsimp only
  split
  · split
    · exact .fail _
    · refine .bind .advance fun _ => .bind (.at? _) fun _ => .ite' (fun _ => ?_) fun _ => .pure' _
      exact .bind .advance fun _ => .pure' _
  · exact .bind .advance fun _ => .pure' _
  · split
    · exact .fail _
    · exact .bind .advance fun _ => .pure' _
  · split
    · exact .fail _
    · exact .bind .advance fun _ => .pure' _
  · exact .bind .advance fun _ => .pure' _
  · exact .fail _

theorem literalOrSlot : Composed p loud p.literalOrSlot := by
  unfold Phrase.literalOrSlot
  refine .position fun start _ => .bind .literal fun owner => .position fun next _ => ?_
  refine .ite' (fun _ => .bind .advance fun _ => .bind .longName fun name => ?_) fun _ => .pure' owner
  exact .bind (.spanFrom start) fun _ => .pure' _

theorem primary : Composed p loud p.primary := by
  unfold Phrase.primary
  refine .bind (.outcome .reference) ?_
  intro read
  cases read with
  | none => exact .literalOrSlot
  | some r => exact .pure' _

theorem joined {operator : Nat → Option (MathOp × Nat)} {factor : Bool} {x : Rule Expr}
    (hfinds : p.Finds operator factor) (h : Composed p false x) (fuel : Nat) (left : Expr) :
    Composed p loud (Phrase.joined operator x fuel left) := by
  induction fuel generalizing left with
  | zero => exact .pure' left
  | succ fuel ih =>
    unfold Phrase.joined
    refine .position fun before hbefore => ?_
    split
    · exact .pure' left
    · next op n hop =>
      obtain ⟨-, os, hos, -⟩ := hfinds before op n hop
      refine .bind (.moveTo (hos.le_size hbefore)) fun _ => .bind (.outcome h) ?_
      intro read
      cases read with
      | none => exact .bind (.moveTo hbefore) fun _ => .pure' left
      | some right => exact ih _

theorem term : Composed p loud p.term := by
  unfold Phrase.term
  exact .bind .primary fun first => joined Phrase.finds_factorOperator .primary _ _

theorem arithmetic : Composed p loud p.arithmetic :=
  .keptExpression (.bind .term fun _ => joined Phrase.finds_termOperator .term _ _)

theorem comparison : Composed p loud p.comparison := by
  unfold Phrase.comparison
  refine .position fun start hstart => ?_
  dsimp only
  split
  · next kinds op hfound =>
    have hstop : ∀ entry ∈ comparisons, Kind.stop ∉ entry.1 := by decide
    have hentry := List.find?_some hfound
    obtain ⟨os, hos, -⟩ := Phrase.took_of_stands (hstop _ (List.mem_of_find?_eq_some hfound))
      (Phrase.stands_iff.1 hentry)
    exact .bind (.moveTo (hos.le_size hstart)) fun _ => .pure' _
  · exact .fail _

theorem compared : Composed p loud p.compared := by
  unfold Phrase.compared
  refine .bind .arithmetic fun first => .bind .comparison fun op => ?_
  exact .bind .arithmetic fun second => .pure' _

theorem expression : Composed p loud p.expression :=
  .keptExpression (.first .compared (.first .arithmetic .nothing))

theorem arithmeticPhrase (inPlace : Bool) : Composed p loud (p.arithmeticPhrase inPlace) := by
  unfold Phrase.arithmeticPhrase
  refine .position fun start _ => ?_
  split
  · refine .bind .advance fun _ => .bind .expression fun operand => .bind (.eat _) fun _ => ?_
    exact .bind .reference fun target => .bind (.spanFrom start) fun _ => .pure' _
  · refine .bind .advance fun _ => .bind .expression fun operand => .bind (.eat _) fun _ => ?_
    exact .bind .reference fun target => .bind (.spanFrom start) fun _ => .pure' _
  · refine .bind .advance fun _ => .bind .reference fun target => .bind (.eat _) fun _ => ?_
    exact .bind .expression fun operand => .bind (.spanFrom start) fun _ => .pure' _
  · refine .bind .advance fun _ => .bind .reference fun target => .bind (.eat _) fun _ => ?_
    exact .bind .expression fun operand => .bind (.spanFrom start) fun _ => .pure' _
  · exact .fail _

theorem assignment : Composed p loud p.assignment := by
  unfold Phrase.assignment
  refine .position fun start _ => .bind (.at? _) fun _ => .ite' (fun _ => ?_) fun _ => ?_
  · refine .bind .advance fun _ => .bind .expression fun value => .bind (.eatAny _ _) fun _ => ?_
    exact .bind .reference fun target => .bind (.spanFrom start) fun _ => .pure' _
  · refine .bind (.eat _) fun _ => .bind .reference fun target => .bind (.eatAny _ _) fun _ => ?_
    refine .bind (.skipAny _) fun _ => .bind .expression fun value => ?_
    exact .bind (.spanFrom start) fun _ => .pure' _

/-! Declarations. -/

theorem initializer : Composed p loud p.initializer := by
  unfold Phrase.initializer
  exact .bind (.eat _) fun _ => .bind (.skipAny _) fun _ => .expression

theorem variableDeclaration : Composed p loud p.variableDeclaration := by
  unfold Phrase.variableDeclaration
  refine .position fun start _ => .bind (.eat _) fun _ => .bind .longName fun name => ?_
  refine .bind (.eatAny _ _) fun _ => .bind .typeName fun type => ?_
  refine .bind (.outcome (.attempt .initializer)) fun value => ?_
  exact .bind (.spanFrom start) fun _ => .pure' _

theorem variableStatement : Composed p loud p.variableStatement := by
  unfold Phrase.variableStatement
  exact .bind .variableDeclaration fun _ => .pure' _

theorem unitAlias : Composed p loud p.unitAlias := by
  unfold Phrase.unitAlias
  refine .position fun start _ => .bind (.eat _) fun _ => .bind .longName fun name => ?_
  refine .bind (.eat _) fun _ => .bind (.eat _) fun amount => ?_
  split
  · exact .fail _
  · exact .bind (.eat _) fun unit => .bind (.spanFrom start) fun _ => .pure' _

theorem constantDeclaration : Composed p loud p.constantDeclaration := by
  unfold Phrase.constantDeclaration
  refine .position fun start _ => .bind (.eat _) fun _ => .bind .longName fun name => ?_
  refine .bind (.eat _) fun _ => .bind .literal fun value => ?_
  exact .bind (.spanFrom start) fun _ => .pure' _

theorem pointerDeclaration : Composed p loud p.pointerDeclaration := by
  unfold Phrase.pointerDeclaration
  refine .position fun start _ => .bind (.eat _) fun _ => .bind .longName fun name => ?_
  refine .bind (.spanFrom start) fun _ => .bind (.eat _) fun _ => .bind (.eat _) fun _ => ?_
  refine .position fun i _ => .ite' (fun _ => .bind .advance fun _ => ?_) fun _ => .fail _
  refine .bind (.eat _) fun _ => .bind .typeName fun base => ?_
  exact .bind (.spanFrom start) fun _ => .pure' _

theorem slotAlias : Composed p loud p.slotAlias := by
  unfold Phrase.slotAlias
  refine .bind .here fun k => ?_
  split
  · refine .bind .advance fun _ => .bind (.skipAny _) fun _ => ?_
    exact .bind .longName fun name => .pure' _
  · refine .bind .advance fun _ => .bind (.eat _) fun _ => ?_
    exact .bind .longName fun name => .pure' _
  · exact .fail _

theorem slot : Composed p loud p.slot := by
  unfold Phrase.slot
  refine .position fun start _ => .bind (.eatAny _ _) fun article => .bind .longName fun name => ?_
  refine .bind (.outcome (.attempt .slotAlias)) fun aliasFor => ?_
  exact .bind (.spanFrom start) fun _ => .pure' _

theorem moreSlots (fuel : Nat) : Composed p loud (p.moreSlots fuel) := by
  induction fuel with
  | zero => exact .pure' []
  | succ fuel ih =>
    unfold Phrase.moreSlots
    refine .position fun before hbefore => .bind (.skipAny _) fun _ => .bind (.skipAny _) fun _ => ?_
    refine .position fun _ _ => .ite' (fun _ => .pure' []) fun _ => .bind (.outcome .slot) ?_
    intro read
    cases read with
    | none => exact .bind (.moveTo hbefore) fun _ => .pure' []
    | some next => exact .bind ih fun later => .pure' _

theorem slotList : Composed p loud p.slotList := by
  unfold Phrase.slotList
  exact .bind .slot fun first => .bind (.moreSlots _) fun later => .pure' _

theorem shapeDeclaration : Composed p loud p.shapeDeclaration := by
  unfold Phrase.shapeDeclaration
  refine .position fun start _ => .bind (.eat _) fun _ => .bind .longName fun name => ?_
  refine .bind (.eat _) fun _ => .bind .typeName fun base => .bind (.at? _) fun _ => ?_
  refine .ite' (fun _ => ?_) fun _ => .bind (.spanFrom start) fun _ => .pure' _
  refine .bind .advance fun _ => .bind .slotList fun slots => ?_
  exact .bind (.spanFrom start) fun _ => .pure' _

theorem shapeOfSlots : Composed p loud p.shapeOfSlots := by
  unfold Phrase.shapeOfSlots
  refine .position fun start _ => .bind (.eat _) fun _ => .bind .longName fun name => ?_
  refine .bind (.eat _) fun _ => .bind .slotList fun slots => ?_
  exact .bind (.spanFrom start) fun _ => .pure' _

/-! Statements and headers. -/

theorem statementSentence {x : Rule Stmt} (h : Composed p loud x) :
    Composed p loud (Grammar.statementSentence x) := by
  unfold Grammar.statementSentence
  exact .bind h fun _ => .pure' _

theorem expressionStatement {x : Rule Expr} (h : Composed p loud x) :
    Composed p loud (Grammar.expressionStatement x) := by
  unfold Grammar.expressionStatement
  exact .bind h fun _ => .pure' _

theorem resultStatement : Composed p loud p.resultStatement := by
  unfold Phrase.resultStatement
  have tail (start : Nat) : Composed p loud
      (do let value ← p.expression; pure (Stmt.result value (← p.spanFrom start))) :=
    .bind .expression fun value => .bind (.spanFrom start) fun _ => .pure' _
  refine .position fun start _ => .bind (.at? _) fun _ => .ite' (fun _ => ?_) fun _ => ?_
  · exact .bind .advance fun _ => .bind (.eat _) fun _ => tail start
  · exact .bind (.eat _) fun _ => tail start

/-- A comparison that ends elsewhere fails without a word. -/
theorem wholeComparison (stop : Nat) : Composed p false (p.wholeComparison stop) := by
  rw [Phrase.wholeComparison_eq]
  exact .bind .expression fun e =>
    .look (f := fun i => if e.isComparison ∧ i = stop then some e else none) (g := id) nofun fun _ h => h

theorem condition (stop : Nat) : Composed p loud (p.condition stop) := by
  unfold Phrase.condition
  refine .bind (.outcome (.attempt (.wholeComparison stop))) ?_
  intro read
  cases read with
  | none => exact .position fun i _ => .pure' _
  | some e => exact .pure' e

theorem branchStatement : Composed p loud p.branchStatement := by
  unfold Phrase.branchStatement
  refine .position fun start _ => .ite' (fun _ => .fail _) fun _ => .ite' (fun _ => .fail _) fun _ => ?_
  refine .bind (.moveTo (Nat.le_refl _)) fun _ => ?_
  split
  · exact .pure' _
  · exact .bind (.spanFrom start) fun _ => .pure' _

theorem conditional : Composed p loud p.conditional := by
  unfold Phrase.conditional
  refine .position fun start _ => .bind (.eat _) fun _ => .position fun first _ => ?_
  split
  · exact .bind (.moveTo (Nat.le_refl _)) fun _ => .fail _
  · next separator hseparator =>
    have hlt := (Phrase.find?_eq_some hseparator).2.1
    refine .ite' (fun _ => .fail _) fun _ => .bind (.condition _) fun test => ?_
    refine .bind (.moveTo hlt) fun _ => .bind .branchStatement fun branch => ?_
    exact .bind (.spanFrom start) fun _ => .pure' _

theorem header (start first : Nat) {separator : Option Nat} (h : ∀ i ∈ separator, i < p.size) :
    Composed p loud (p.header start first separator) := by
  have hstop : separator.getD p.size ≤ p.size := by
    cases separator with
    | none => exact Nat.le_refl _
    | some i => exact Nat.le_of_lt (h i rfl)
  unfold Phrase.header
  dsimp only
  split
  · next i hi => exact .bind (.moveTo (Nat.le_of_lt (Phrase.lt_size_of_markerPhrase hi))) fun _ => .fail _
  · refine .ite' (fun _ => .bind (.moveTo hstop) fun _ => .fail _) fun _ => ?_
    exact .bind (.moveTo (Nat.le_refl _)) fun _ => .pure' _

theorem keywordHeader : Composed p loud p.keywordHeader := by
  unfold Phrase.keywordHeader
  refine .position fun start _ => .bind (.eatAny _ _) fun keyword => ?_
  refine .position fun first _ => .ite' (fun _ => ?_) fun _ => ?_
  · split
    · exact .fail _
    · next separator hseparator =>
      refine .header _ _ fun i hi => ?_
      obtain rfl := Option.some.inj hi
      exact (Phrase.find?_eq_some hseparator).2.1
  · exact .header _ _ fun i hi => (Phrase.find?_eq_some hi).2.1

theorem bareHeader : Composed p loud p.bareHeader := by
  unfold Phrase.bareHeader
  refine .position fun start _ => ?_
  split
  · exact .fail _
  · next arrow harrow =>
    refine .header _ _ fun i hi => ?_
    obtain rfl := Option.some.inj hi
    exact (Phrase.find?_eq_some harrow).2.1

theorem invocation : Composed p loud p.invocation := by
  unfold Phrase.invocation
  refine .position fun start _ => ?_
  split
  · next i hi => exact .bind (.moveTo (Nat.le_of_lt (Phrase.lt_size_of_markerPhrase hi))) fun _ => .fail _
  · refine .ite' (fun _ => .fail _) fun _ => .bind (.moveTo (Nat.le_refl _)) fun _ => ?_
    exact .bind (.spanFrom start) fun _ => .pure' _

/-! Whole sentences. -/

theorem sentenceOf (entry : Entry) : Composed p loud (p.sentenceOf entry) := by
  cases entry with
  | reference =>
    exact .statementSentence (.firstComplete .pointerDeclaration
      (List.forall_mem_cons.2 ⟨.shapeDeclaration, List.forall_mem_singleton.2 .shapeOfSlots⟩))
  | declaration =>
    exact .statementSentence (.firstComplete .variableStatement
      (List.forall_mem_cons.2 ⟨.unitAlias, List.forall_mem_singleton.2 .constantDeclaration⟩))
  | expression =>
    exact .statementSentence (.expressionStatement
      (.firstComplete (.arithmeticPhrase true) (List.forall_mem_singleton.2 .assignment)))
  | conditional => exact .statementSentence (.complete .conditional)
  | labeled => exact .complete .keywordHeader
  | result => exact .statementSentence (.complete .resultStatement)
  | invocation => exact .firstComplete .bareHeader (List.forall_mem_singleton.2 .invocation)

theorem sentence : Composed p loud p.sentence := by
  unfold Phrase.sentence
  split
  · exact .fail _
  · exact .sentenceOf _

theorem expressionNode {x : Rule Expr} (h : Composed p loud x) :
    Composed p loud (Grammar.expressionNode x) := by
  unfold Grammar.expressionNode
  exact .bind h fun _ => .pure' _

theorem referenceNode : Composed p loud p.referenceNode := by
  unfold Phrase.referenceNode
  exact .bind .plainReference fun _ => .pure' _

theorem declarationNode : Composed p loud p.declarationNode := by
  unfold Phrase.declarationNode
  exact .bind .variableDeclaration fun _ => .pure' _

/-- Where no bare node may start, nothing is tried and nothing noted. -/
theorem bare (entry : Option Entry) : Composed p false (p.bare entry) := by
  have expressionOnly : Composed p false (p.firstComplete [Grammar.expressionNode p.expression]) :=
    .firstComplete (.expressionNode .expression) nofun
  rcases entry with _ | entry
  · exact expressionOnly
  · cases entry with
    | reference =>
      exact .firstComplete .referenceNode (List.forall_mem_singleton.2 (.expressionNode .expression))
    | declaration => exact .firstComplete .declarationNode nofun
    | expression =>
      exact .firstComplete (.expressionNode (.arithmeticPhrase false))
        (List.forall_mem_singleton.2 (.expressionNode .assignment))
    | _ => exact .look (f := fun _ => none) (g := id) nofun fun _ h => h

/-- The sentence that is tried behind a bare node says why it fails. -/
theorem bareOrSentence (entry : Option Entry) : Composed p loud (p.bareOrSentence entry) := by
  unfold Phrase.bareOrSentence
  refine .later (.bind (.bare entry) fun _ => .pure' _) (.first ?_ .nothing)
  exact .bind .sentence fun _ => .pure' _

end Composed

end Prose.Grammar
