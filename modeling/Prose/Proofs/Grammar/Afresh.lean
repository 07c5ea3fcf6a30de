import Prose.Proofs.Grammar.Mirror
import Prose.Proofs.Grammar.Wording

/- Every rule of the grammar mirrors its fresh form, construct by construct in the
   order of the grammar: names, expressions, declarations, statements and whole
   sentences. Only the rules of references and expressions keep results; all others
   mirror their fresh form because what they run does. -/
namespace Prose.Grammar

variable {α β : Type} {p : Phrase}

/-! A phrase read afresh has the same tokens, room and branches. -/

namespace Phrase

@[simp] theorem fresh_size : p.fresh.size = p.size := rfl
@[simp] theorem fresh_room : p.fresh.room = p.room := rfl
@[simp] theorem fresh_branch : p.fresh.branch = p.branch := rfl
@[simp] theorem fresh_tokenAt (i : Nat) : p.fresh.tokenAt i = p.tokenAt i := rfl
@[simp] theorem fresh_kindAt (i : Nat) : p.fresh.kindAt i = p.kindAt i := rfl
@[simp] theorem fresh_between (i j : Nat) : p.fresh.between i j = p.between i j := rfl
@[simp] theorem fresh_find? (i : Nat) (kinds : List Kind) :
    p.fresh.find? i kinds = p.find? i kinds := rfl

end Phrase

/-- An expression, if it is a comparison that ends at index `stop`. -/
def comparisonTo (stop : Nat) (e : Expr) : Rule Expr := fun s =>
  (if e.isComparison ∧ s.pos = stop then some e else none, s)

theorem Phrase.wholeComparison_eq (stop : Nat) :
    p.wholeComparison stop = (p.expression >>= comparisonTo stop) := by
  funext s
  simp only [Phrase.wholeComparison]
  rcases hs : p.expression s with ⟨_ | e, t⟩
  · rw [Rule.bind_none hs]
  · rw [Rule.bind_some hs, comparisonTo]
    cases e <;> simp [Expr.isComparison]

namespace Mirrors

/-! Looking at tokens and taking them. -/

theorem here : Mirrors p p.here p.fresh.here := look (fun i => some (p.kindAt i)) id

theorem at? (k : Kind) : Mirrors p (p.at? k) (p.fresh.at? k) :=
  look (fun i => some (p.kindAt i == k)) id

theorem atAny? (kinds : List Kind) : Mirrors p (p.atAny? kinds) (p.fresh.atAny? kinds) :=
  look (fun i => some (kinds.contains (p.kindAt i))) id

theorem advance : Mirrors p p.advance p.fresh.advance :=
  look (fun i => some (p.tokenAt i)) fun i => if i < p.size then i + 1 else i

theorem spanFrom (first : Nat) : Mirrors p (p.spanFrom first) (p.fresh.spanFrom first) :=
  look (fun i => some (p.spanBetween first i)) id

theorem skipAny (kinds : List Kind) : Mirrors p (p.skipAny kinds) (p.fresh.skipAny kinds) := by
  unfold Phrase.skipAny
  exact .bind' (.atAny? kinds) fun _ => .ite' (.bind' .advance fun _ => .pure' _) (.pure' _)

theorem eat (k : Kind) : Mirrors p (p.eat k) (p.fresh.eat k) := by
  unfold Phrase.eat
  exact .bind' (.at? k) fun _ => .ite' .advance (.fail _)

theorem eatAny (kinds : List Kind) (what : String) :
    Mirrors p (p.eatAny kinds what) (p.fresh.eatAny kinds what) := by
  unfold Phrase.eatAny
  exact .bind' (.atAny? kinds) fun _ => .ite' .advance (.fail _)

theorem complete {x y : Rule α} (h : Mirrors p x y) :
    Mirrors p (p.complete x) (p.fresh.complete y) := by
  unfold Phrase.complete
  refine .attempt (.bind' h fun a => ?_)
  exact .bind' (.at? _) fun _ => .ite' (.pure' a) (.fail _)

theorem firstComplete_nil :
    Mirrors p (p.firstComplete ([] : List (Rule α))) (p.fresh.firstComplete []) := firstOf_nil

theorem firstComplete_cons {x y : Rule α} {xs ys : List (Rule α)} (h : Mirrors p x y)
    (hs : Mirrors p (p.firstComplete xs) (p.fresh.firstComplete ys)) :
    Mirrors p (p.firstComplete (x :: xs)) (p.fresh.firstComplete (y :: ys)) :=
  firstOf_cons h.complete hs

/-! Names and references. -/

theorem longName : Mirrors p p.longName p.fresh.longName := by
  unfold Phrase.longName
  refine .bind' .position fun start => .ite' (.fail _) ?_
  exact .bind' (.moveTo _) fun _ => .bind' (.spanFrom start) fun _ => .pure' _

theorem plainReference : Mirrors p p.plainReference p.fresh.plainReference := by
  unfold Phrase.plainReference
  refine .bind' .position fun start => .bind' (.eat _) fun _ => .bind' .longName fun name => ?_
  exact .bind' (.spanFrom start) fun _ => .pure' _

theorem typeName : Mirrors p p.typeName p.fresh.typeName := by
  unfold Phrase.typeName
  refine .bind' .position fun start => .bind' (.eatAny _ _) fun article => ?_
  exact .bind' .longName fun name => .bind' (.spanFrom start) fun _ => .pure' _

theorem possessions (start : Nat) (fuel : Nat) (r : Reference) :
    Mirrors p (p.possessions start fuel r) (p.fresh.possessions start fuel r) := by
  induction fuel generalizing r with
  | zero => exact .pure' r
  | succ fuel ih =>
    unfold Phrase.possessions
    refine .bind' (.at? _) fun _ => .ite' (.bind' .position fun before => ?_) (.pure' r)
    refine .bind' .advance fun _ => .bind' (.skipAny _) fun _ => .bind' (.outcome .longName) ?_
    intro read
    cases read with
    | none => exact .bind' (.moveTo before) fun _ => .pure' r
    | some name => exact .bind' (.spanFrom start) fun _ => ih _

theorem ownership {x y : Rule Reference} (h : Mirrors p x y) (r : Reference) :
    Mirrors p (p.ownership x r) (p.fresh.ownership y r) := by
  unfold Phrase.ownership
  refine .bind' .position fun before => .ite' (.bind' .advance fun _ => ?_) (.pure' r)
  refine .bind' h.outcome ?_
  intro read
  cases read with
  | none => exact .bind' (.moveTo before) fun _ => .pure' r
  | some o => exact .pure' _

theorem ownedName {x y : Rule Reference} (h : Mirrors p x y) :
    Mirrors p (p.ownedName x) (p.fresh.ownedName y) := by
  unfold Phrase.ownedName
  refine .bind' .position fun start => .bind' (.eatAny _ _) fun _ => .bind' .longName fun name => ?_
  refine .bind' (.spanFrom start) fun _ => .bind' (.possessions _ _ _) fun r => ?_
  exact h.ownership r

theorem ownedReference (room : Nat) :
    Mirrors p (p.referenceWithin room) (p.fresh.referenceWithin room) := by
  induction room with
  | zero => exact referenceWithin rfl rfl (ownedName (.fail _))
  | succ room ih => exact referenceWithin rfl rfl (ownedName ih.attempt)

theorem reference : Mirrors p p.reference p.fresh.reference := ownedReference p.room

/-! Expressions. -/

theorem literal : Mirrors p p.literal p.fresh.literal := by
  unfold Phrase.literal
  refine .bind' .position fun i => ?_
  simp only [Phrase.fresh_tokenAt]
  split
  · split
    · exact .fail _
    · refine .bind' .advance fun _ => .bind' (.at? _) fun _ => .ite' ?_ (.pure' _)
      exact .bind' .advance fun _ => .pure' _
  · exact .bind' .advance fun _ => .pure' _
  · split
    · exact .fail _
    · exact .bind' .advance fun _ => .pure' _
  · split
    · exact .fail _
    · exact .bind' .advance fun _ => .pure' _
  · exact .bind' .advance fun _ => .pure' _
  · exact .fail _

theorem literalOrSlot : Mirrors p p.literalOrSlot p.fresh.literalOrSlot := by
  unfold Phrase.literalOrSlot
  refine .bind' .position fun start => .bind' .literal fun owner => .bind' .position fun next => ?_
  refine .ite' (.bind' .advance fun _ => .bind' .longName fun name => ?_) (.pure' owner)
  exact .bind' (.spanFrom start) fun _ => .pure' _

theorem primary : Mirrors p p.primary p.fresh.primary := by
  unfold Phrase.primary
  refine .bind' (.outcome .reference) ?_
  intro read
  cases read with
  | none => exact .literalOrSlot
  | some r => exact .pure' _

theorem joined {operator : Nat → Option (MathOp × Nat)} {x y : Rule Expr} (h : Mirrors p x y)
    (fuel : Nat) (left : Expr) :
    Mirrors p (Phrase.joined operator x fuel left) (Phrase.joined operator y fuel left) := by
  induction fuel generalizing left with
  | zero => exact .pure' left
  | succ fuel ih =>
    unfold Phrase.joined
    refine .bind' .position fun before => ?_
    split
    · exact .pure' left
    · refine .bind' (.moveTo _) fun _ => .bind' h.outcome ?_
      intro read
      cases read with
      | none => exact .bind' (.moveTo before) fun _ => .pure' left
      | some right => exact ih _

theorem term : Mirrors p p.term p.fresh.term := by
  unfold Phrase.term
  exact .bind' .primary fun first => joined .primary _ _

theorem arithmetic : Mirrors p p.arithmetic p.fresh.arithmetic :=
  keptRule (k := .arithmetic) rfl rfl (.bind' .term fun _ => joined .term _ _)

theorem comparison : Mirrors p p.comparison p.fresh.comparison := by
  unfold Phrase.comparison
  refine .bind' .position fun start => ?_
  simp only [Phrase.fresh_kindAt]
  split
  · exact .bind' (.moveTo _) fun _ => .pure' _
  · exact .fail _

theorem compared : Mirrors p p.compared p.fresh.compared := by
  unfold Phrase.compared
  refine .bind' .arithmetic fun first => .bind' .comparison fun op => ?_
  exact .bind' .arithmetic fun second => .pure' _

theorem expression : Mirrors p p.expression p.fresh.expression :=
  keptRule (k := .expression) rfl rfl
    (.firstOf_cons .compared (.firstOf_cons .arithmetic .firstOf_nil))

theorem arithmeticPhrase (inPlace : Bool) :
    Mirrors p (p.arithmeticPhrase inPlace) (p.fresh.arithmeticPhrase inPlace) := by
  unfold Phrase.arithmeticPhrase
  refine .bind' .position fun start => ?_
  simp only [Phrase.fresh_kindAt]
  split
  · refine .bind' .advance fun _ => .bind' .expression fun operand => .bind' (.eat _) fun _ => ?_
    exact .bind' .reference fun target => .bind' (.spanFrom start) fun _ => .pure' _
  · refine .bind' .advance fun _ => .bind' .expression fun operand => .bind' (.eat _) fun _ => ?_
    exact .bind' .reference fun target => .bind' (.spanFrom start) fun _ => .pure' _
  · refine .bind' .advance fun _ => .bind' .reference fun target => .bind' (.eat _) fun _ => ?_
    exact .bind' .expression fun operand => .bind' (.spanFrom start) fun _ => .pure' _
  · refine .bind' .advance fun _ => .bind' .reference fun target => .bind' (.eat _) fun _ => ?_
    exact .bind' .expression fun operand => .bind' (.spanFrom start) fun _ => .pure' _
  · exact .fail _

theorem assignment : Mirrors p p.assignment p.fresh.assignment := by
  unfold Phrase.assignment
  refine .bind' .position fun start => .bind' (.at? _) fun _ => .ite' ?_ ?_
  · refine .bind' .advance fun _ => .bind' .expression fun value => .bind' (.eatAny _ _) fun _ => ?_
    exact .bind' .reference fun target => .bind' (.spanFrom start) fun _ => .pure' _
  · refine .bind' (.eat _) fun _ => .bind' .reference fun target => .bind' (.eatAny _ _) fun _ => ?_
    refine .bind' (.skipAny _) fun _ => .bind' .expression fun value => ?_
    exact .bind' (.spanFrom start) fun _ => .pure' _

/-! Declarations. -/

theorem initializer : Mirrors p p.initializer p.fresh.initializer := by
  unfold Phrase.initializer
  exact .bind' (.eat _) fun _ => .bind' (.skipAny _) fun _ => .expression

theorem variableDeclaration : Mirrors p p.variableDeclaration p.fresh.variableDeclaration := by
  unfold Phrase.variableDeclaration
  refine .bind' .position fun start => .bind' (.eat _) fun _ => .bind' .longName fun name => ?_
  refine .bind' (.eatAny _ _) fun _ => .bind' .typeName fun type => ?_
  refine .bind' (.outcome (.attempt .initializer)) fun value => ?_
  exact .bind' (.spanFrom start) fun _ => .pure' _

theorem variableStatement : Mirrors p p.variableStatement p.fresh.variableStatement := by
  unfold Phrase.variableStatement
  exact .bind' .variableDeclaration fun _ => .pure' _

theorem unitAlias : Mirrors p p.unitAlias p.fresh.unitAlias := by
  unfold Phrase.unitAlias
  refine .bind' .position fun start => .bind' (.eat _) fun _ => .bind' .longName fun name => ?_
  refine .bind' (.eat _) fun _ => .bind' (.eat _) fun amount => ?_
  split
  · exact .fail _
  · exact .bind' (.eat _) fun unit => .bind' (.spanFrom start) fun _ => .pure' _

theorem constantDeclaration : Mirrors p p.constantDeclaration p.fresh.constantDeclaration := by
  unfold Phrase.constantDeclaration
  refine .bind' .position fun start => .bind' (.eat _) fun _ => .bind' .longName fun name => ?_
  refine .bind' (.eat _) fun _ => .bind' .literal fun value => ?_
  exact .bind' (.spanFrom start) fun _ => .pure' _

theorem pointerDeclaration : Mirrors p p.pointerDeclaration p.fresh.pointerDeclaration := by
  unfold Phrase.pointerDeclaration
  refine .bind' .position fun start => .bind' (.eat _) fun _ => .bind' .longName fun name => ?_
  refine .bind' (.spanFrom start) fun _ => .bind' (.eat _) fun _ => .bind' (.eat _) fun _ => ?_
  refine .bind' .position fun i => .ite' (.bind' .advance fun _ => ?_) (.fail _)
  refine .bind' (.eat _) fun _ => .bind' .typeName fun base => ?_
  exact .bind' (.spanFrom start) fun _ => .pure' _

theorem slotAlias : Mirrors p p.slotAlias p.fresh.slotAlias := by
  unfold Phrase.slotAlias
  refine .bind' .here fun k => ?_
  split
  · refine .bind' .advance fun _ => .bind' (.skipAny _) fun _ => ?_
    exact .bind' .longName fun name => .pure' _
  · refine .bind' .advance fun _ => .bind' (.eat _) fun _ => ?_
    exact .bind' .longName fun name => .pure' _
  · exact .fail _

theorem slot : Mirrors p p.slot p.fresh.slot := by
  unfold Phrase.slot
  refine .bind' .position fun start => .bind' (.eatAny _ _) fun article => ?_
  refine .bind' .longName fun name => .bind' (.outcome (.attempt .slotAlias)) fun aliasFor => ?_
  exact .bind' (.spanFrom start) fun _ => .pure' _

theorem moreSlots (fuel : Nat) : Mirrors p (p.moreSlots fuel) (p.fresh.moreSlots fuel) := by
  induction fuel with
  | zero => exact .pure' []
  | succ fuel ih =>
    unfold Phrase.moreSlots
    refine .bind' .position fun before => .bind' (.skipAny _) fun _ => .bind' (.skipAny _) fun _ => ?_
    refine .bind' .position fun _ => .ite' (.pure' []) (.bind' (.outcome .slot) ?_)
    intro read
    cases read with
    | none => exact .bind' (.moveTo before) fun _ => .pure' []
    | some next => exact .bind' ih fun later => .pure' _

theorem slotList : Mirrors p p.slotList p.fresh.slotList := by
  unfold Phrase.slotList
  exact .bind' .slot fun first => .bind' (.moreSlots _) fun later => .pure' _

theorem shapeDeclaration : Mirrors p p.shapeDeclaration p.fresh.shapeDeclaration := by
  unfold Phrase.shapeDeclaration
  refine .bind' .position fun start => .bind' (.eat _) fun _ => .bind' .longName fun name => ?_
  refine .bind' (.eat _) fun _ => .bind' .typeName fun base => .bind' (.at? _) fun _ => .ite' ?_ ?_
  · refine .bind' .advance fun _ => .bind' .slotList fun slots => ?_
    exact .bind' (.spanFrom start) fun _ => .pure' _
  · exact .bind' (.spanFrom start) fun _ => .pure' _

theorem shapeOfSlots : Mirrors p p.shapeOfSlots p.fresh.shapeOfSlots := by
  unfold Phrase.shapeOfSlots
  refine .bind' .position fun start => .bind' (.eat _) fun _ => .bind' .longName fun name => ?_
  refine .bind' (.eat _) fun _ => .bind' .slotList fun slots => ?_
  exact .bind' (.spanFrom start) fun _ => .pure' _

/-! Statements and headers. -/

theorem statementSentence {x y : Rule Stmt} (h : Mirrors p x y) :
    Mirrors p (Grammar.statementSentence x) (Grammar.statementSentence y) := by
  unfold Grammar.statementSentence
  exact .bind' h fun _ => .pure' _

theorem expressionStatement {x y : Rule Expr} (h : Mirrors p x y) :
    Mirrors p (Grammar.expressionStatement x) (Grammar.expressionStatement y) := by
  unfold Grammar.expressionStatement
  exact .bind' h fun _ => .pure' _

theorem resultStatement : Mirrors p p.resultStatement p.fresh.resultStatement := by
  unfold Phrase.resultStatement
  have tail (start : Nat) : Mirrors p
      (do let value ← p.expression; pure (Stmt.result value (← p.spanFrom start)))
      (do let value ← p.fresh.expression; pure (Stmt.result value (← p.fresh.spanFrom start))) :=
    .bind' .expression fun value => .bind' (.spanFrom start) fun _ => .pure' _
  refine .bind' .position fun start => .bind' (.at? _) fun _ => .ite' ?_ ?_
  · exact .bind' .advance fun _ => .bind' (.eat _) fun _ => tail start
  · exact .bind' (.eat _) fun _ => tail start

theorem wholeComparison (stop : Nat) :
    Mirrors p (p.wholeComparison stop) (p.fresh.wholeComparison stop) := by
  rw [Phrase.wholeComparison_eq, Phrase.wholeComparison_eq]
  exact .bind' .expression fun e =>
    look (fun i => if e.isComparison ∧ i = stop then some e else none) id

theorem condition (stop : Nat) : Mirrors p (p.condition stop) (p.fresh.condition stop) := by
  unfold Phrase.condition
  refine .bind' (.outcome (.attempt (.wholeComparison stop))) ?_
  intro read
  cases read with
  | none => exact .bind' .position fun i => .pure' _
  | some e => exact .pure' e

theorem branchStatement : Mirrors p p.branchStatement p.fresh.branchStatement := by
  unfold Phrase.branchStatement
  refine .bind' .position fun start => ?_
  simp only [Phrase.fresh_room, Phrase.fresh_between, Phrase.fresh_size, Phrase.fresh_branch]
  refine .ite' (.fail _) (.ite' (.fail _) (.bind' (.moveTo _) fun _ => ?_))
  split
  · exact .pure' _
  · exact .bind' (.spanFrom start) fun _ => .pure' _

theorem conditional : Mirrors p p.conditional p.fresh.conditional := by
  unfold Phrase.conditional
  refine .bind' .position fun start => .bind' (.eat _) fun _ => .bind' .position fun first => ?_
  simp only [Phrase.fresh_find?]
  split
  · exact .bind' (.moveTo _) fun _ => .fail _
  · refine .ite' (.fail _) (.bind' (.condition _) fun test => .bind' (.moveTo _) fun _ => ?_)
    exact .bind' .branchStatement fun branch => .bind' (.spanFrom start) fun _ => .pure' _

theorem header (start first : Nat) (separator : Option Nat) :
    Mirrors p (p.header start first separator) (p.fresh.header start first separator) := by
  unfold Phrase.header
  simp only [Phrase.fresh_size, Phrase.fresh_between, Phrase.fresh_tokenAt]
  split
  · exact .bind' (.moveTo _) fun _ => .fail _
  · refine .ite' (.bind' (.moveTo _) fun _ => .fail _) ?_
    exact .bind' (.moveTo _) fun _ => .pure' _

theorem keywordHeader : Mirrors p p.keywordHeader p.fresh.keywordHeader := by
  unfold Phrase.keywordHeader
  refine .bind' .position fun start => .bind' (.eatAny _ _) fun keyword => ?_
  refine .bind' .position fun first => .ite' ?_ (.header _ _ _)
  simp only [Phrase.fresh_find?]
  split
  · exact .fail _
  · exact .header _ _ _

theorem bareHeader : Mirrors p p.bareHeader p.fresh.bareHeader := by
  unfold Phrase.bareHeader
  refine .bind' .position fun start => ?_
  simp only [Phrase.fresh_find?]
  split
  · exact .fail _
  · exact .header _ _ _

theorem invocation : Mirrors p p.invocation p.fresh.invocation := by
  unfold Phrase.invocation
  refine .bind' .position fun start => ?_
  simp only [Phrase.fresh_size, Phrase.fresh_between]
  split
  · exact .bind' (.moveTo _) fun _ => .fail _
  · refine .ite' (.fail _) (.bind' (.moveTo _) fun _ => ?_)
    exact .bind' (.spanFrom start) fun _ => .pure' _

/-! Whole sentences. -/

theorem sentenceOf (entry : Entry) : Mirrors p (p.sentenceOf entry) (p.fresh.sentenceOf entry) := by
  cases entry with
  | reference =>
    exact .statementSentence (.firstComplete_cons .pointerDeclaration
      (.firstComplete_cons .shapeDeclaration (.firstComplete_cons .shapeOfSlots .firstComplete_nil)))
  | declaration =>
    exact .statementSentence (.firstComplete_cons .variableStatement
      (.firstComplete_cons .unitAlias (.firstComplete_cons .constantDeclaration .firstComplete_nil)))
  | expression =>
    exact .statementSentence (.expressionStatement (.firstComplete_cons (.arithmeticPhrase true)
      (.firstComplete_cons .assignment .firstComplete_nil)))
  | conditional => exact .statementSentence (.complete .conditional)
  | labeled => exact .complete .keywordHeader
  | result => exact .statementSentence (.complete .resultStatement)
  | invocation =>
    exact .firstComplete_cons .bareHeader (.firstComplete_cons .invocation .firstComplete_nil)

theorem sentence : Mirrors p p.sentence p.fresh.sentence := by
  unfold Phrase.sentence
  simp only [Phrase.fresh_kindAt]
  split
  · exact .fail _
  · exact .sentenceOf _

theorem expressionNode {x y : Rule Expr} (h : Mirrors p x y) :
    Mirrors p (Grammar.expressionNode x) (Grammar.expressionNode y) := by
  unfold Grammar.expressionNode
  exact .bind' h fun _ => .pure' _

theorem referenceNode : Mirrors p p.referenceNode p.fresh.referenceNode := by
  unfold Phrase.referenceNode
  exact .bind' .plainReference fun _ => .pure' _

theorem declarationNode : Mirrors p p.declarationNode p.fresh.declarationNode := by
  unfold Phrase.declarationNode
  exact .bind' .variableDeclaration fun _ => .pure' _

theorem bare (entry : Option Entry) : Mirrors p (p.bare entry) (p.fresh.bare entry) := by
  have expressionOnly : Mirrors p (p.firstComplete [Grammar.expressionNode p.expression])
      (p.fresh.firstComplete [Grammar.expressionNode p.fresh.expression]) :=
    .firstComplete_cons (.expressionNode .expression) .firstComplete_nil
  rcases entry with _ | entry
  · exact expressionOnly
  · cases entry with
    | reference => exact .firstComplete_cons .referenceNode expressionOnly
    | declaration => exact .firstComplete_cons .declarationNode .firstComplete_nil
    | expression =>
      exact .firstComplete_cons (.expressionNode (.arithmeticPhrase false))
        (.firstComplete_cons (.expressionNode .assignment) .firstComplete_nil)
    | _ => exact look (fun _ => none) id

theorem bareOrSentence (entry : Option Entry) :
    Mirrors p (p.bareOrSentence entry) (p.fresh.bareOrSentence entry) := by
  unfold Phrase.bareOrSentence
  refine .firstOf_cons (.bind' (.bare entry) fun _ => .pure' _) (.firstOf_cons ?_ .firstOf_nil)
  exact .bind' .sentence fun _ => .pure' _

end Mirrors

end Prose.Grammar
