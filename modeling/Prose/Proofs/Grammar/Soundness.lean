import Mathlib
import Prose.Proofs.Grammar.Afresh
import Prose.Proofs.Grammar.Took

/- Soundness of expressions. Whatever is read as an expression is said by exactly the
   tokens that were taken, with every operand and every operation in its place, and is
   grouped in the one way that the grammar knows. That is shown for a phrase that keeps
   no results, rule by rule; kept results give nothing else. -/
namespace Prose.Grammar

open Rule

/-! Names of the owners of a reference, from the outermost down. -/

theorem path_plain (name : String) (span : Span) : (Reference.plain name span).path = [name] := rfl

theorem path_slot (r : Reference) (name : String) (span : Span) :
    (Reference.mk name span (r.toOwner :: r.owners)).path = r.path ++ [name] := by
  simp only [Reference.path, Reference.toOwner, List.map_cons, List.reverse_cons]

theorem path_withRootOwner (r o : Reference) : (r.withRootOwner o).path = o.path ++ r.path := by
  have hnames : (r.owners.map fun w => { w with span := w.span.cover o.span }).map Owner.name =
      r.owners.map Owner.name := by
    rw [List.map_map]
    rfl
  simp only [Reference.path, Reference.withRootOwner, Reference.toOwner, List.map_append, hnames,
    List.map_cons, List.reverse_append, List.reverse_cons, List.append_assoc]

namespace Phrase

variable {p : Phrase} {i j : Nat} {ts : List Token}

/-! References. -/

/-- Possessives are taken as long as a name follows, and the tokens taken so far say all of
    the owners. -/
theorem gives_possessions {r : Reference} {first start fuel : Nat} (htook : p.Took first ts i)
    (hr : Possessions r.path ts) : (p.possessions start fuel r).Gives i fun r' j =>
      ∃ us, p.Took first us j ∧ Possessions r'.path us := by
  -- on the steps of the loop; what is said so far grows by an apostrophe and a name
  induction fuel generalizing r ts i with
  | zero => exact .pure' ⟨ts, htook, hr⟩
  | succ fuel ih =>
    unfold possessions
    refine gives_at? (.ite' (fun h => .position ?_) fun _ => .pure' ⟨ts, htook, hr⟩)
    have hkind := eq_of_beq h
    refine (gives_advance (lt_size_of_kindAt hkind (by decide))).bind' ?_
    intro apostrophe j hread
    obtain ⟨rfl, hapostrophe⟩ := hread
    refine (reads_skipArticles j).bind' ?_
    intro _ k hread
    obtain ⟨article, harticle, hmaybe⟩ := hread
    refine .outcome (reads_longName k) ?_ fun _ => .moveTo (.pure' ⟨ts, htook, hr⟩)
    intro name l hread
    obtain ⟨us, hus, hname⟩ := hread
    refine (gives_spanFrom start).bind' ?_
    intro span m hm
    obtain rfl := hm
    refine ih (htook.append (hapostrophe.append (harticle.append hus))) ?_
    rw [path_slot]
    have hslot := Possessions.slot hr hkind hmaybe hname
    exact hslot

/-- The owner behind an `of` stands above all that are there. -/
theorem gives_ownership {owner : Rule Reference} {r : Reference} {first : Nat}
    (howner : p.Reads owner fun o ts => Belongings o.path ts) (htook : p.Took first ts i)
    (hr : Possessions r.path ts) : (p.ownership owner r).Gives i fun r' j =>
      ∃ us, p.Took first us j ∧ Belongings r'.path us := by
  unfold ownership
  refine .position (.ite' (fun h => ?_) fun _ => .pure' ⟨ts, htook, .possessions hr⟩)
  have hof : p.kindAt i = .ofWord := eq_of_beq (Bool.and_eq_true_iff.1 h).1
  refine (gives_advance (lt_size_of_kindAt hof (by decide))).bind' ?_
  intro preposition j hread
  obtain ⟨rfl, hpreposition⟩ := hread
  refine .outcome (howner j) ?_ fun _ => .moveTo (.pure' ⟨ts, htook, .possessions hr⟩)
  intro o k hread
  obtain ⟨us, hus, ho⟩ := hread
  refine .pure' ⟨_, htook.append (hpreposition.append hus), ?_⟩
  rw [path_withRootOwner]
  exact .owned hr hof ho

theorem reads_ownedName {owner : Rule Reference}
    (howner : p.Reads owner fun o ts => Belongings o.path ts) :
    p.Reads (p.ownedName owner) fun r ts => Belongings r.path ts := by
  intro i
  refine .position ((reads_eatAny (by decide) i).bind' ?_)
  intro article j hread
  obtain ⟨_, harticle, hkind, rfl⟩ := hread
  refine (reads_longName j).bind' ?_
  intro name k hread
  obtain ⟨us, hus, hname⟩ := hread
  refine (gives_spanFrom i).bind' ?_
  intro span l hl
  obtain rfl := hl
  refine .bind' (gives_possessions (harticle.append hus) (.name hkind hname)) ?_
  intro r m hread
  obtain ⟨vs, hvs, hr⟩ := hread
  exact gives_ownership howner hvs hr

/-- Where no results are kept, the rules of references are attempted. -/
theorem keptReference_eq (hp : p.memoize = false) (room : Nat) (x : Rule Reference) :
    p.keptReference room x = attempt x := by
  funext s
  simp only [keptReference, hp, Bool.false_eq_true, if_false]

/-- So are the rules of expressions. -/
theorem keptExpression_eq (hp : p.memoize = false) (k : Kept) (x : Rule Expr) :
    p.keptExpression k x = attempt x := by
  funext s
  simp only [keptExpression, hp, Bool.false_eq_true, if_false]

theorem referenceWithin_eq_attempt (hp : p.memoize = false) (room : Nat) :
    ∃ x, p.referenceWithin room = attempt x := by
  cases room <;> exact ⟨_, keptReference_eq hp _ _⟩

theorem reads_referenceWithin (hp : p.memoize = false) (room : Nat) :
    p.Reads (p.referenceWithin room) fun r ts => Belongings r.path ts := by
  induction room with
  | zero =>
    intro i
    rw [referenceWithin, keptReference_eq hp]
    exact (reads_ownedName (fun _ => .fail _) i).attempt
  | succ room ih =>
    intro i
    rw [referenceWithin, keptReference_eq hp]
    exact (reads_ownedName (fun j => (ih j).attempt) i).attempt

/-! Operands. -/

theorem reads_literal : p.Reads p.literal LiteralRead := by
  intro i
  refine .position ?_
  simp only
  have hlt {k : Kind} (hkind : (p.tokenAt i).kind = k) (hk : k ≠ .stop) : i < p.size :=
    lt_size_of_kindAt hkind hk
  split
  · next hkind =>
    split
    · exact .fail _
    · next n hn =>
      refine (gives_advance (hlt hkind (by decide))).bind' ?_
      intro token j hread
      obtain ⟨rfl, htoken⟩ := hread
      refine gives_at? (.ite' (fun h => ?_) fun _ => .pure' ⟨_, htoken, .int hkind hn⟩)
      have hinch := eq_of_beq h
      refine (gives_advance (lt_size_of_kindAt hinch (by decide))).bind' ?_
      intro inch k hread
      obtain ⟨rfl, hinch'⟩ := hread
      exact .pure' ⟨_, htoken.append hinch', .inches hkind hn hinch⟩
  · next hkind =>
    refine (gives_advance (hlt hkind (by decide))).bind' ?_
    intro token j hread
    obtain ⟨rfl, htoken⟩ := hread
    exact .pure' ⟨_, htoken, .text hkind⟩
  · next hkind =>
    split
    · exact .fail _
    · next bs hbs =>
      refine (gives_advance (hlt hkind (by decide))).bind' ?_
      intro token j hread
      obtain ⟨rfl, htoken⟩ := hread
      exact .pure' ⟨_, htoken, .bytes hkind hbs⟩
  · next hkind =>
    split
    · exact .fail _
    · next n d hnd =>
      refine (gives_advance (hlt hkind (by decide))).bind' ?_
      intro token j hread
      obtain ⟨rfl, htoken⟩ := hread
      exact .pure' ⟨_, htoken, .ratio hkind hnd⟩
  · next hkind =>
    refine (gives_advance (hlt hkind (by decide))).bind' ?_
    intro token j hread
    obtain ⟨rfl, htoken⟩ := hread
    exact .pure' ⟨_, htoken, .null hkind⟩
  · exact .fail _

/-- What the grammar takes for an operand. -/
abbrev Operands : Expr → List Token → Prop := Operand LiteralRead Belongings

theorem reads_literalOrSlot : p.Reads p.literalOrSlot Operands := by
  intro i
  refine .position ((reads_literal i).bind' ?_)
  intro owner j hread
  obtain ⟨ts, hts, howner⟩ := hread
  refine .position (.ite' (fun h => ?_) fun _ => .pure' ⟨ts, hts, .literal howner⟩)
  have hkind : p.kindAt j = .possessive := eq_of_beq (Bool.and_eq_true_iff.1 h).1
  refine (gives_advance (lt_size_of_kindAt hkind (by decide))).bind' ?_
  intro apostrophe k hread
  obtain ⟨rfl, hapostrophe⟩ := hread
  refine (reads_longName k).bind' ?_
  intro name l hread
  obtain ⟨us, hus, hname⟩ := hread
  refine (gives_spanFrom i).bind' ?_
  intro span m hm
  obtain rfl := hm
  exact .pure' ⟨_, hts.append (hapostrophe.append hus), .slot howner hkind hname⟩

theorem reads_primary (hp : p.memoize = false) : p.Reads p.primary Operands := by
  obtain ⟨x, hx⟩ := referenceWithin_eq_attempt hp p.room
  have hreference := reads_referenceWithin hp p.room
  intro i
  rw [primary, reference, hx]
  refine .outcome_attempt (hx ▸ hreference i) ?_ (reads_literalOrSlot i)
  intro r j hread
  obtain ⟨ts, hts, hr⟩ := hread
  exact .pure' ⟨ts, hts, .reference hr⟩

/-! Operations. -/

/-- The operations of one level, whose phrases stand where they are found. -/
def Finds (p : Phrase) (operator : Nat → Option (MathOp × Nat)) (factor : Bool) : Prop :=
  ∀ i op n, operator i = some (op, n) →
    op.isFactor = factor ∧ ∃ os, p.Took i os (i + n) ∧ Says op.words os

theorem finds_factorOperator : p.Finds p.factorOperator true := by
  intro i op n h
  have hby {k : Kind} (hk : p.kindAt i = k) (hk' : k ≠ .stop) (hby : p.kindAt (i + 1) = .byWord) :
      ∃ os, p.Took i os (i + 2) ∧ Says [k, .byWord] os := by
    have htook := (took_one (lt_size_of_kindAt hk hk')).append
      (took_one (lt_size_of_kindAt hby (by decide)))
    exact ⟨_, htook, by rw [← hk, ← hby]; rfl⟩
  unfold factorOperator at h
  split at h
  · next hk hk' =>
    cases h
    exact ⟨rfl, hby hk (by decide) hk'⟩
  · next hk hk' =>
    cases h
    exact ⟨rfl, hby hk (by decide) hk'⟩
  · cases h

theorem finds_termOperator : p.Finds p.termOperator false := by
  intro i op n h
  have hone {k : Kind} (hk : p.kindAt i = k) (hk' : k ≠ .stop) :
      ∃ os, p.Took i os (i + 1) ∧ Says [k] os :=
    ⟨_, took_one (lt_size_of_kindAt hk hk'), by rw [← hk]; rfl⟩
  unfold termOperator at h
  split at h
  · next hk =>
    cases h
    exact ⟨rfl, hone hk (by decide)⟩
  · next hk =>
    cases h
    exact ⟨rfl, hone hk (by decide)⟩
  · cases h

/-- Operands are joined as long as an operation with another operand follows. What the tokens
    taken so far say is kept by joining. -/
theorem gives_joined {operator : Nat → Option (MathOp × Nat)} {factor : Bool} {operand : Rule Expr}
    {L R : Expr → List Token → Prop} (hfinds : p.Finds operator factor) (hoperand : p.Reads operand R)
    (hjoin : ∀ {op left right ts os us}, op.isFactor = factor → L left ts → Says op.words os →
      R right us → L (mathExpr op left right) (ts ++ (os ++ us)))
    {left : Expr} {first fuel : Nat} (htook : p.Took first ts i) (hleft : L left ts) :
    (joined operator operand fuel left).Gives i fun e j => ∃ us, p.Took first us j ∧ L e us := by
  -- on the steps of the loop; a step that finds no operand goes back before the operator
  induction fuel generalizing left ts i with
  | zero => exact .pure' ⟨ts, htook, hleft⟩
  | succ fuel ih =>
    unfold joined
    refine .position ?_
    split
    · exact .pure' ⟨ts, htook, hleft⟩
    · next op n hop =>
      obtain ⟨hfactor, os, hos, hphrase⟩ := hfinds i op n hop
      refine .moveTo (.outcome (hoperand _) ?_ fun _ => .moveTo (.pure' ⟨ts, htook, hleft⟩))
      intro right k hread
      obtain ⟨us, hus, hright⟩ := hread
      exact ih (htook.append (hos.append hus)) (hjoin hfactor hleft hphrase hright)

/-- Operations on operands, grouped as they should be. -/
def Sums (e : Expr) (ts : List Token) : Prop := e.Worded Operands ts ∧ e.Arithmetic

/-- The same without a sum at the root. -/
def Products (e : Expr) (ts : List Token) : Prop := Sums e ts ∧ e.isSum = false

theorem Operands.products {e : Expr} (h : Operands e ts) : Products e ts ∧ e.isMath = false := by
  have hword : e.Worded Operands ts := .operand h
  cases h with
  | literal h => cases h <;> exact ⟨⟨⟨hword, trivial⟩, rfl⟩, rfl⟩
  | slot => exact ⟨⟨⟨hword, trivial⟩, rfl⟩, rfl⟩
  | reference => exact ⟨⟨⟨hword, trivial⟩, rfl⟩, rfl⟩

theorem reads_term (hp : p.memoize = false) : p.Reads p.term Products := by
  intro i
  refine (reads_primary hp i).bind' ?_
  intro first j hread
  obtain ⟨ts, hts, hfirst⟩ := hread
  refine gives_joined finds_factorOperator (reads_primary hp) ?_ hts hfirst.products.1
  intro op left right ts os us hfactor hleft hphrase hright
  obtain ⟨⟨⟨hword, harith⟩, -⟩, hmath⟩ := hright.products
  refine ⟨⟨.math hleft.1.1 hphrase hword, hleft.1.2, harith, ?_⟩, ?_⟩
  · rw [if_pos hfactor]
    exact ⟨hleft.2, hmath⟩
  · rw [mathExpr, Expr.isSum, hfactor]
    rfl

theorem reads_arithmetic (hp : p.memoize = false) : p.Reads p.arithmetic Sums := by
  intro i
  rw [arithmetic, keptExpression_eq hp]
  refine ((reads_term hp i).bind' ?_).attempt
  intro first j hread
  obtain ⟨ts, hts, hfirst⟩ := hread
  refine gives_joined finds_termOperator (reads_term hp) ?_ hts hfirst.1
  intro op left right ts os us hfactor hleft hphrase hright
  refine ⟨.math hleft.1 hphrase hright.1.1, hleft.2, hright.1.2, ?_⟩
  rw [if_neg (by rw [hfactor]; exact Bool.false_ne_true)]
  exact hright.2

/-- Tokens of fixed kinds stand from an index on. -/
def Stands (p : Phrase) (i : Nat) (kinds : List Kind) : Prop :=
  ∀ m (hm : m < kinds.length), p.kindAt (i + m) = kinds[m]

theorem stands_iff {kinds : List Kind} :
    (kinds.zipIdx.all fun (kind, m) => p.kindAt (i + m) == kind) = true ↔ p.Stands i kinds := by
  rw [List.all_eq_true]
  constructor
  · intro h m hm
    exact eq_of_beq (h (kinds[m], m) (List.mk_mem_zipIdx_iff_getElem?.2 (List.getElem?_eq_getElem hm)))
  · intro h position hmem
    obtain ⟨kind, m⟩ := position
    obtain ⟨hm, rfl⟩ := List.getElem?_eq_some_iff.1 (List.mk_mem_zipIdx_iff_getElem?.1 hmem)
    exact beq_iff_eq.2 (h m hm)

/-- What stands from an index on is taken. -/
theorem took_of_stands {kinds : List Kind} (hstop : .stop ∉ kinds) (h : p.Stands i kinds) :
    ∃ os, p.Took i os (i + kinds.length) ∧ Says kinds os := by
  induction kinds generalizing i with
  | nil => exact ⟨[], took_nil, rfl⟩
  | cons k kinds ih =>
    have hk : k ≠ .stop := fun hk => hstop (hk ▸ List.mem_cons_self)
    have hkinds : .stop ∉ kinds := fun hmem => hstop (List.mem_cons_of_mem _ hmem)
    have hfirst : p.kindAt i = k := h 0 (Nat.succ_pos _)
    obtain ⟨os, hos, hphrase⟩ := ih (i := i + 1) hkinds fun m hm => by
      rw [Nat.add_assoc, Nat.add_comm 1]
      exact h (m + 1) (Nat.succ_lt_succ hm)
    refine ⟨p.tokenAt i :: os, ?_, ?_⟩
    · rw [List.length_cons, Nat.add_comm kinds.length, ← Nat.add_assoc]
      exact (took_one (lt_size_of_kindAt hfirst hk)).append hos
    · rw [← hfirst, ← hphrase]
      rfl

theorem reads_comparison : p.Reads p.comparison fun op ts => (ts.map Token.kind, op) ∈ comparisons := by
  intro i
  refine .position ?_
  simp only
  split
  · next kinds op hfound =>
    have hmem := List.mem_of_find?_eq_some hfound
    have hentry := List.find?_some hfound
    have hstop : ∀ entry ∈ comparisons, Kind.stop ∉ entry.1 := by decide
    obtain ⟨os, hos, hphrase⟩ := took_of_stands (hstop _ hmem) (stands_iff.1 hentry)
    exact .moveTo (.pure' ⟨os, hos, hphrase ▸ hmem⟩)
  · exact .fail _

/-- An expression in its one form, with what it is said by. -/
def Expressions (e : Expr) (ts : List Token) : Prop := e.Worded Operands ts ∧ e.Canonical

theorem Sums.expressions {e : Expr} (h : Sums e ts) : Expressions e ts := by
  obtain ⟨hword, harith⟩ := h
  refine ⟨hword, ?_⟩
  cases e <;> first | exact harith | exact harith.elim

theorem reads_expression (hp : p.memoize = false) : p.Reads p.expression Expressions := by
  intro i
  rw [expression, keptExpression_eq hp]
  refine Gives.attempt (.firstOf_cons ?_ (.firstOf_cons ?_ .firstOf_nil))
  · refine (reads_arithmetic hp i).bind' ?_
    intro first j hread
    obtain ⟨ts, hts, hfirst⟩ := hread
    refine (reads_comparison j).bind' ?_
    intro op k hread
    obtain ⟨os, hos, hop⟩ := hread
    refine (reads_arithmetic hp k).bind' ?_
    intro second l hread
    obtain ⟨us, hus, hsecond⟩ := hread
    refine .pure' ⟨_, hts.append (hos.append hus), ?_⟩
    exact ⟨.comparison hfirst.1 hop hsecond.1, hfirst.2, hsecond.2⟩
  · refine (reads_arithmetic hp i).mono ?_
    intro e j hread
    obtain ⟨ts, hts, he⟩ := hread
    exact ⟨ts, hts, he.expressions⟩

end Phrase

/-! Kept results give nothing else. -/

/-- Whatever was noted in reading a phrase, the kept results are sound. -/
theorem Phrase.Reached.faithful {p : Phrase} {s : Progress} (h : p.Reached s) : p.Faithful s := by
  induction h with
  | start => exact .start
  | moved i _ ih => exact ih.moved i
  | missed what _ ih => exact ih.missed what
  | kept k _ ih =>
    cases k with
    | expression => exact Mirrors.expression.faithful ih
    | arithmetic => exact Mirrors.arithmetic.faithful ih
  | reference room _ ih => exact (Mirrors.ownedReference room).faithful ih

/-- A literal is said by some tokens. -/
theorem LiteralRead.ne_nil {e : Expr} {ts : List Token} (h : LiteralRead e ts) : ts ≠ [] := by
  cases h <;> exact List.cons_ne_nil _ _

theorem Belongings.ne_nil {path : List String} {ts : List Token} (h : Belongings path ts) :
    ts ≠ [] := by
  have hpossessions {path ts} (h : Possessions path ts) : ts ≠ [] := by
    cases h with
    | name => exact List.cons_ne_nil _ _
    | slot => exact List.append_ne_nil_of_right_ne_nil _ (List.cons_ne_nil _ _)
  cases h with
  | possessions h => exact hpossessions h
  | owned => exact List.append_ne_nil_of_right_ne_nil _ (List.cons_ne_nil _ _)

theorem Phrase.Operands.ne_nil {e : Expr} {ts : List Token} (h : Operands e ts) : ts ≠ [] := by
  cases h with
  | literal h => exact h.ne_nil
  | slot => exact List.append_ne_nil_of_right_ne_nil _ (List.cons_ne_nil _ _)
  | reference h => exact h.ne_nil

theorem worded_ne_nil {operand : Expr → List Token → Prop} (hne : ∀ e ts, operand e ts → ts ≠ [])
    {e : Expr} {ts : List Token} (h : e.Worded operand ts) : ts ≠ [] := by
  induction h with
  | operand h => exact hne _ _ h
  | math _ _ _ ih => exact List.append_ne_nil_of_left_ne_nil ih _
  | comparison _ _ _ ih => exact List.append_ne_nil_of_left_ne_nil ih _

/-- What a phrase gives as an expression, from wherever the cursor stands and whatever was
    noted and kept before, is said by exactly the tokens between where the rule started and
    where it stopped, and is in its one form. -/
theorem expression_accounts {p : Phrase} {s t : Progress} {e : Expr} (hs : p.Reached s)
    (h : p.expression s = (some e, t)) :
    s.pos < t.pos ∧ t.pos ≤ p.size ∧
      e.Worded (Operand LiteralRead Belongings) (p.between s.pos t.pos) ∧ e.Canonical := by
  have hrun := Mirrors.expression.run hs.faithful
  rw [h] at hrun
  -- the run afresh gives the same expression and stops at the same index
  obtain ⟨ts, hts, hword, hcanonical⟩ :=
    Phrase.reads_expression (p := p.fresh) rfl s.pos s.plain e t.plain rfl hrun
  obtain ⟨hlt, hle⟩ := hts.lt_and_le (worded_ne_nil (fun _ _ => Phrase.Operands.ne_nil) hword)
  refine ⟨hlt, hle, ?_, hcanonical⟩
  have hbetween : p.between s.pos t.pos = ts := hts.between_eq
  rw [hbetween]
  exact hword

/-- A phrase of words whose texts do not matter, at no place in particular. -/
def Phrase.ofKinds (kinds : List Kind) : Phrase :=
  ⟨kinds.map fun k => ⟨k, "", 0, 0⟩, 0, true, 0, fun ts => (Stmt.ofUnread ts, false)⟩

/-- `null plus null multiplied by null is null plus`, where the last word is left. -/
theorem expression_accounts_null :
    let p : Phrase := .ofKinds [.nullWord, .plusWord, .nullWord, .multipliedWord, .byWord, .nullWord,
      .isWord, .nullWord, .plusWord]
    let null : Expr := .null .zero
    let sum : Expr := .math .plus null (.math .multiply null null .zero) .zero
    let e : Expr := .comparison .equals sum null .zero
    p.Reached {} ∧ p.expression {} = (some e, (p.expression {}).2) ∧
      0 < (p.expression {}).2.pos ∧ (p.expression {}).2.pos ≤ p.size ∧
      e.Worded (Operand LiteralRead Belongings) (p.between 0 (p.expression {}).2.pos) ∧
      e.Canonical := by
  intro p null sum e
  have hstart : p.Reached {} := .start
  have hvalue : (p.expression {}).1 = some e := by cbv
  clear_value p
  have h : p.expression {} = (some e, (p.expression {}).2) := Prod.ext hvalue rfl
  exact ⟨hstart, h, expression_accounts hstart h⟩

end Prose.Grammar
