import Prose.Document.Draft
import Prose.Proofs.Token.Runs

/- Trees at another place. Everything in a tree can stand some bytes further on, and what
   is built from parts that do stands there, too: spans that cover others, references
   with owners, statements below a header. Only what covers nothing stays at the start. -/
namespace Prose

variable {n : Nat}

/-! Spans and tokens. -/

/-- The span `n` bytes further on. -/
def Span.shift (n : Nat) (s : Span) : Span := ⟨s.start + n, s.stop + n⟩

/-- The token `n` bytes further on. -/
def Token.shift (n : Nat) (t : Token) : Token := ⟨t.kind, t.text, t.start + n, t.stop + n⟩

theorem Span.map_shift_zero (spans : List Span) : spans.map (shift 0) = spans := List.map_id' spans

theorem Span.shift_cover (s t : Span) : (s.cover t).shift n = (s.shift n).cover (t.shift n) := by
  simp only [shift, cover, Nat.add_min_add_right, Nat.add_max_add_right]

theorem Span.ofToken_shift (t : Token) : ofToken (t.shift n) = (ofToken t).shift n := rfl

/-- From the first of some tokens to the last, if there are any. -/
theorem Span.ofTokens_shift {ts : List Token} (hne : ts ≠ []) :
    ofTokens (ts.map (Token.shift n)) = (ofTokens ts).shift n := by
  simp only [ofTokens, List.head?_map, List.getLast?_map, List.head?_eq_some_head hne,
    List.getLast?_eq_some_getLast hne]
  rfl

theorem Token.joinTexts_shift (ts : List Token) : joinTexts (ts.map (shift n)) = joinTexts ts := by
  simp only [joinTexts, List.map_map]
  rfl

theorem Token.filter_isSignificant_shift (ts : List Token) :
    (ts.map (shift n)).filter isSignificant = (ts.filter isSignificant).map (shift n) := by
  rw [List.filter_map]
  rfl

theorem Token.splitAt_shift (k : Kind) (ts : List Token) :
    splitAt k (ts.map (shift n)) = (splitAt k ts).map (List.map (shift n)) :=
  splitAt_map (shift n) (fun _ => rfl) k ts

/-! References. -/

/-- The owner `n` bytes further on. -/
def Owner.shift (n : Nat) (o : Owner) : Owner := { o with span := o.span.shift n }

/-- The reference and its owners `n` bytes further on. -/
def Reference.shift (n : Nat) (r : Reference) : Reference :=
  ⟨r.name, r.span.shift n, r.owners.map (Owner.shift n)⟩

theorem Reference.shift_withRootOwner (r owner : Reference) :
    (r.withRootOwner owner).shift n = (r.shift n).withRootOwner (owner.shift n) := by
  simp [withRootOwner, shift, toOwner, Owner.shift, Span.shift_cover]

/-! Declarations. -/

/-- The type name `n` bytes further on. -/
def TypeName.shift (n : Nat) (t : TypeName) : TypeName := { t with span := t.span.shift n }

/-- The slot `n` bytes further on. -/
def Slot.shift (n : Nat) (s : Slot) : Slot := { s with span := s.span.shift n }

/-- The shape `n` bytes further on. -/
def Shape.shift (n : Nat) (s : Shape) : Shape :=
  ⟨s.name, s.base.map (TypeName.shift n), s.slots.map (List.map (Slot.shift n)), s.span.shift n⟩

/-- The header `n` bytes further on. -/
def Label.shift (n : Nat) (l : Label) : Label :=
  ⟨l.markers, l.parameters.map (Reference.shift n), l.result.map (Reference.shift n), l.span.shift n⟩

theorem Label.shift_merge (l m : Label) : (l.merge m).shift n = (l.shift n).merge (m.shift n) := by
  have hparameters : (l.parameters.map (Reference.shift n)).isEmpty = l.parameters.isEmpty := by simp
  simp only [shift, merge, Span.shift_cover, hparameters, apply_ite (List.map (Reference.shift n))]
  cases l.result <;> rfl

/-! Expressions. -/

mutual

/-- The expression `n` bytes further on. -/
def Expr.shift (n : Nat) : Expr → Expr
  | .int value span => .int value (span.shift n)
  | .text value span => .text value (span.shift n)
  | .bytes value span => .bytes value (span.shift n)
  | .inches value span => .inches (value.shift n) (span.shift n)
  | .ratio numerator denominator span => .ratio numerator denominator (span.shift n)
  | .null span => .null (span.shift n)
  | .reference name span => .reference (name.shift n) (span.shift n)
  | .possessive slot owner span => .possessive (slot.shift n) (owner.shift n) (span.shift n)
  | .assignment target value span => .assignment (target.shift n) (value.shift n) (span.shift n)
  | .update inPlace op operand target span =>
    .update inPlace op (operand.shift n) (target.shift n) (span.shift n)
  | .math op first second span => .math op (first.shift n) (second.shift n) (span.shift n)
  | .comparison op first second span =>
    .comparison op (first.shift n) (second.shift n) (span.shift n)
  | .invocation marker parameters span =>
    .invocation marker (Expr.shiftAll n parameters) (span.shift n)
  | .invalid code span => .invalid code (span.shift n)

/-- Some expressions `n` bytes further on. -/
def Expr.shiftAll (n : Nat) : List Expr → List Expr
  | [] => []
  | e :: es => e.shift n :: Expr.shiftAll n es

end

theorem Expr.span_shift (e : Expr) : (e.shift n).span = e.span.shift n := by cases e <;> rfl

theorem Expr.shiftAll_eq_map (es : List Expr) : shiftAll n es = es.map (shift n) := by
  induction es with
  | nil => rfl
  | cons e es ih => rw [shiftAll, ih, List.map_cons]

/-- The declaration `n` bytes further on. -/
def VariableDeclaration.shift (n : Nat) (d : VariableDeclaration) : VariableDeclaration :=
  ⟨d.name, d.type.shift n, d.initializer.map (Expr.shift n), d.span.shift n⟩

/-! Statements. -/

mutual

/-- The statement `n` bytes further on. -/
def Stmt.shift (n : Nat) : Stmt → Stmt
  | .block body span => .block (Stmt.shiftAll n body) (span.shift n)
  | .paragraph statements label span =>
    .paragraph (Stmt.shiftAll n statements) (label.map (Label.shift n)) (span.shift n)
  | .variableDeclaration declaration span =>
    .variableDeclaration (declaration.shift n) (span.shift n)
  | .shapeDeclaration declaration span => .shapeDeclaration (declaration.shift n) (span.shift n)
  | .constantDeclaration name value span =>
    .constantDeclaration (name.shift n) (value.shift n) (span.shift n)
  | .unitAlias name value base span =>
    .unitAlias (name.shift n) (value.shift n) (base.shift n) (span.shift n)
  | .pointerDeclaration pointer base span =>
    .pointerDeclaration (pointer.shift n) (base.shift n) (span.shift n)
  | .expression value span => .expression (value.shift n) (span.shift n)
  | .conditional condition branch span =>
    .conditional (condition.shift n) (branch.shift n) (span.shift n)
  | .result value span => .result (value.shift n) (span.shift n)
  | .invocation marker parameters target span =>
    .invocation marker (parameters.map (Reference.shift n)) (target.map (Reference.shift n))
      (span.shift n)
  | .labeled label body span => .labeled (label.shift n) (body.shift n) (span.shift n)
  | .invalid tokens span => .invalid (tokens.map (Token.shift n)) (span.shift n)

/-- Some statements `n` bytes further on. -/
def Stmt.shiftAll (n : Nat) : List Stmt → List Stmt
  | [] => []
  | s :: ss => s.shift n :: Stmt.shiftAll n ss

end

namespace Stmt

theorem span_shift (s : Stmt) : (s.shift n).span = s.span.shift n := by cases s <;> rfl

theorem shiftAll_eq_map (ss : List Stmt) : shiftAll n ss = ss.map (shift n) := by
  induction ss with
  | nil => rfl
  | cons s ss ih => rw [shiftAll, ih, List.map_cons]

theorem shift_underHeader (l : Label) (s : Stmt) :
    (underHeader l s).shift n = underHeader (l.shift n) (s.shift n) := by
  simp only [underHeader, shift, span_shift, Span.shift_cover]
  rfl

theorem shift_noBody (l : Label) : (noBody l).shift n = noBody (l.shift n) := rfl

/-- Tokens that nothing could read, if there are any. -/
theorem shift_ofUnread {ts : List Token} (hne : ts ≠ []) (hts : ∀ t ∈ ts, t.isSignificant) :
    (ofUnread ts).shift n = ofUnread (ts.map (Token.shift n)) := by
  simp only [ofUnread, Token.filter_isSignificant_shift, List.filter_eq_self.2 hts, shift,
    Span.ofTokens_shift hne]

end Stmt

/-! Paragraphs. -/

/-- The paragraph and all that is in it `n` bytes further on. -/
def Paragraph.shift (n : Nat) (p : Paragraph) : Paragraph :=
  ⟨p.statements.map (Stmt.shift n), p.label.map (Label.shift n), p.span.shift n⟩

namespace Draft

/-- The draft `n` bytes further on. -/
def shift (n : Nat) (d : Draft) : Draft :=
  ⟨d.label.map (Label.shift n), d.statements.map (Stmt.shift n), d.isOpen⟩

theorem shift_addStatement (d : Draft) (s : Stmt) :
    (d.addStatement s).shift n = (d.shift n).addStatement (s.shift n) := by
  simp [shift, addStatement]

theorem shift_addHeader (d : Draft) (l : Label) (body : Option Stmt) :
    (d.addHeader l body).shift n = (d.shift n).addHeader (l.shift n) (body.map (Stmt.shift n)) := by
  have htakes : (d.shift n).takesHeader = d.takesHeader := by simp [takesHeader, shift]
  simp only [addHeader, htakes]
  split
  · obtain ⟨label, statements, isOpen⟩ := d
    cases label <;> cases body <;>
      simp [shift, addStatement, Label.shift_merge]
  · rw [shift_addStatement, Stmt.shift_underHeader]
    cases body <;> rfl

end Draft

end Prose
