import Prose.Proofs.Grammar.Derivation
import Prose.Proofs.Grammar.Soundness

/- What the rules of names, expressions, declarations and statements without a branch
   give has a derivation from exactly the tokens that were taken. That is shown rule by
   rule for a phrase that keeps no results. -/
namespace Prose.Grammar

open Rule

variable {α β : Type}

namespace Phrase

variable {p : Phrase} {i j first : Nat} {ts us : List Token}

/-! Spans of tokens taken. -/

theorem Took.getElem_eq (h : p.Took i ts j) {k : Nat} (hk : k < ts.length) :
    p.tokenAt (i + k) = ts[k] := by
  obtain ⟨⟨rest, hrest⟩, -⟩ := h
  rw [tokenAt, ← List.getElem?_drop, ← hrest, List.getElem?_append_left hk,
    List.getElem?_eq_getElem hk]
  rfl

/-- The ends of some tokens taken are where the first one starts and the last one stops. -/
theorem Took.ofTokens_eq (h : p.Took i ts j) (hne : ts ≠ []) :
    Span.ofTokens ts = ⟨(p.tokenAt i).start, (p.tokenAt (j - 1)).stop⟩ := by
  have hpos := List.length_pos_iff.2 hne
  have hfirst : p.tokenAt i = ts[0] := h.getElem_eq hpos
  have hlast : p.tokenAt (j - 1) = ts[ts.length - 1] := by
    have hk : ts.length - 1 < ts.length := by omega
    rw [← h.getElem_eq hk]
    congr 1
    have hj := h.2
    omega
  rw [hfirst, hlast, Span.ofTokens, List.head?_eq_getElem?, List.getElem?_eq_getElem hpos,
    List.getLast?_eq_getElem?, List.getElem?_eq_getElem (by omega)]

theorem Took.spanBetween_eq (h : p.Took i ts j) (hne : ts ≠ []) : p.spanBetween i j = .over ts := by
  have hlt := (h.lt_and_le hne).1
  simp only [spanBetween, hlt, if_true, Span.over, h.ofTokens_eq hne]

theorem took_between (hij : i ≤ j) (hj : j ≤ p.size) : p.Took i (p.between i j) j := by
  refine ⟨List.take_prefix _ _, ?_⟩
  rw [between, List.length_take, List.length_drop]
  simp only [size] at hj
  omega

theorem between_ne_nil (hij : i < j) (hj : j ≤ p.size) : p.between i j ≠ [] := by
  have hlength : (p.between i j).length = j - i := by
    have hstop := (took_between (Nat.le_of_lt hij) hj).2
    omega
  intro hnil
  rw [hnil, List.length_nil] at hlength
  omega

/-- What is taken from the start up to the end is the whole phrase. -/
theorem Took.eq_tokens (h : p.Took 0 ts j) (hstop : p.kindAt j = .stop)
    (hp : ∀ t ∈ p.tokens, t.kind ≠ .stop) : ts = p.tokens := by
  obtain ⟨hpre, rfl⟩ := h
  rw [List.drop_zero] at hpre
  rw [Nat.zero_add] at hstop
  refine hpre.eq_of_length_le (Nat.le_of_not_lt fun hlt => ?_)
  rw [kindAt, tokenAt, List.getElem?_eq_getElem hlt] at hstop
  exact hp _ (List.getElem_mem hlt) hstop

theorem gives_spanOver (htook : p.Took first ts i) (hne : ts ≠ []) :
    (p.spanFrom first).Gives i fun span j => span = .over ts ∧ j = i := by
  intro s a t hs0 hs
  subst hs0
  obtain ⟨ha, rfl⟩ := Prod.mk.inj hs
  obtain rfl := Option.some.inj ha
  exact ⟨htook.spanBetween_eq hne, rfl⟩

/-! Single tokens and names. -/

theorem reads_eat {k : Kind} (hk : k ≠ .stop) :
    p.Reads (p.eat k) fun a ts => a.kind = k ∧ ts = [a] := by
  intro i
  refine gives_at? (.ite' (fun h => ?_) fun _ => .fail _)
  have hkind := eq_of_beq h
  refine (gives_advance (lt_size_of_kindAt hkind hk)).mono ?_
  intro a j hread
  obtain ⟨rfl, htook⟩ := hread
  exact ⟨_, htook, hkind, rfl⟩

theorem reads_skipAny {kinds : List Kind} (hk : .stop ∉ kinds) :
    p.Reads (p.skipAny kinds) fun _ ts => ts = [] ∨ ∃ k ∈ kinds, Says [k] ts := by
  intro i
  refine gives_atAny? (.ite' (fun h => ?_) fun _ => .pure' ⟨[], took_nil, .inl rfl⟩)
  have hkind := List.contains_iff_mem.1 h
  refine (gives_advance (lt_size_of_kindAt rfl fun h' => hk (h' ▸ hkind))).bind' ?_
  intro a j hread
  obtain ⟨rfl, htook⟩ := hread
  exact .pure' ⟨_, htook, .inr ⟨_, hkind, rfl⟩⟩

theorem reads_skipTo : p.Reads (p.skipAny [.toWord]) fun _ ts => MaybeTo ts := by
  intro i
  refine (reads_skipAny (by decide) i).mono ?_
  intro _ j hread
  obtain ⟨ts, htook, hts⟩ := hread
  refine ⟨ts, htook, hts.imp_right ?_⟩
  intro hsays
  obtain ⟨k, hk, hsays⟩ := hsays
  rwa [List.mem_singleton.1 hk] at hsays

/-- A name covers its words. -/
theorem derives_longName :
    p.Reads p.longName fun name ts => Words name.1 ts ∧ name.2 = .over ts := by
  intro i
  refine .position (.ite' (fun _ => .fail _) fun hne => .moveTo ?_)
  have hne' : (p.tokens.drop i).takeWhile (fun t => t.kind == .identifier) ≠ [] :=
    fun h => hne (List.isEmpty_iff.2 h)
  have htook : p.Took i ((p.tokens.drop i).takeWhile fun t => t.kind == .identifier)
      (i + ((p.tokens.drop i).takeWhile fun t => t.kind == .identifier).length) :=
    ⟨List.takeWhile_prefix _, rfl⟩
  refine (gives_spanOver htook hne').bind' ?_
  intro span j hread
  obtain ⟨rfl, rfl⟩ := hread
  refine .pure' ⟨_, htook, ⟨hne', fun t ht => ?_, rfl⟩, rfl⟩
  exact eq_of_beq (List.all_eq_true.1 List.all_takeWhile t ht)

/-! References and types. -/

theorem derives_plainReference : p.Reads p.plainReference (ReferenceFrom p.room) := by
  intro i
  refine .position ((reads_eat (by decide) i).bind' ?_)
  intro article j hread
  obtain ⟨_, harticle, hkind, rfl⟩ := hread
  refine (derives_longName j).bind' ?_
  intro name k hread
  obtain ⟨us, hus, hname, -⟩ := hread
  refine (gives_spanOver (harticle.append hus) (List.cons_ne_nil _ _)).bind' ?_
  intro span l hread
  obtain ⟨rfl, rfl⟩ := hread
  have hkinds : article.kind ∈ articles := hkind ▸ List.mem_cons_self
  exact .pure' ⟨_, harticle.append hus, .name hkinds hname⟩

theorem derives_typeName : p.Reads p.typeName TypeFrom := by
  intro i
  refine .position ((reads_eatAny (by decide) i).bind' ?_)
  intro article j hread
  obtain ⟨_, harticle, hkind, rfl⟩ := hread
  refine (derives_longName j).bind' ?_
  intro name k hread
  obtain ⟨us, hus, hname, -⟩ := hread
  refine (gives_spanOver (harticle.append hus) (List.cons_ne_nil _ _)).bind' ?_
  intro span l hread
  obtain ⟨rfl, rfl⟩ := hread
  exact .pure' ⟨_, harticle.append hus, .name hkind hname⟩

/-- What the reference covers grows with every possessive that is taken. -/
theorem derives_possessions {r : Reference} {fuel : Nat} (htook : p.Took first ts i)
    (hr : ReferenceFrom 0 r ts) : (p.possessions first fuel r).Gives i fun r' j =>
      ∃ us, p.Took first us j ∧ ReferenceFrom 0 r' us := by
  induction fuel generalizing r ts i with
  | zero => exact .pure' ⟨ts, htook, hr⟩
  | succ fuel ih =>
    unfold possessions
    refine gives_at? (.ite' (fun h => .position ?_) fun _ => .pure' ⟨ts, htook, hr⟩)
    have hkind := eq_of_beq h
    refine (gives_advance (lt_size_of_kindAt hkind (by decide))).bind' ?_
    intro apostrophe j hread
    obtain ⟨rfl, hapostrophe⟩ := hread
    refine (reads_skipArticles j).bind' ?_
    intro _ k hread
    obtain ⟨article, harticle, hmaybe⟩ := hread
    refine .outcome (derives_longName k) ?_ fun _ => .moveTo (.pure' ⟨ts, htook, hr⟩)
    intro name l hread
    obtain ⟨us, hus, hname, -⟩ := hread
    have hall := htook.append (hapostrophe.append (harticle.append hus))
    refine (gives_spanOver hall (List.append_ne_nil_of_right_ne_nil _ (List.cons_ne_nil _ _))).bind' ?_
    intro span m hread
    obtain ⟨rfl, rfl⟩ := hread
    have hslot := @ReferenceFrom.slot 0 _ _ _ _ _ _ hr hkind hmaybe hname
    exact ih hall hslot

/-- An owner behind an `of` takes one level of the room. -/
theorem derives_ownership {room : Nat} {owner : Rule Reference} {r : Reference}
    (howner : p.Reads owner fun o us => ∃ less, room = less + 1 ∧ ReferenceFrom less o us)
    (htook : p.Took first ts i) (hr : ReferenceFrom 0 r ts) :
    (p.ownership owner r).Gives i fun r' j => ∃ us, p.Took first us j ∧ ReferenceFrom room r' us := by
  have hunowned := hr.mono (Nat.zero_le room)
  unfold ownership
  refine .position (.ite' (fun h => ?_) fun _ => .pure' ⟨ts, htook, hunowned⟩)
  have hof : p.kindAt i = .ofWord := eq_of_beq (Bool.and_eq_true_iff.1 h).1
  refine (gives_advance (lt_size_of_kindAt hof (by decide))).bind' ?_
  intro preposition j hread
  obtain ⟨rfl, hpreposition⟩ := hread
  refine .outcome (howner j) ?_ fun _ => .moveTo (.pure' ⟨ts, htook, hunowned⟩)
  intro o k hread
  obtain ⟨us, hus, less, rfl, ho⟩ := hread
  exact .pure' ⟨_, htook.append (hpreposition.append hus), .owned hr hof ho⟩

theorem derives_ownedName {room : Nat} {owner : Rule Reference}
    (howner : p.Reads owner fun o us => ∃ less, room = less + 1 ∧ ReferenceFrom less o us) :
    p.Reads (p.ownedName owner) (ReferenceFrom room) := by
  intro i
  refine .position ((reads_eatAny (by decide) i).bind' ?_)
  intro article j hread
  obtain ⟨_, harticle, hkind, rfl⟩ := hread
  refine (derives_longName j).bind' ?_
  intro name k hread
  obtain ⟨us, hus, hname, -⟩ := hread
  refine (gives_spanOver (harticle.append hus) (List.cons_ne_nil _ _)).bind' ?_
  intro span l hread
  obtain ⟨rfl, rfl⟩ := hread
  have hplain : ReferenceFrom 0 (.plain name.1 _) _ := .name hkind hname
  refine .bind' (derives_possessions (harticle.append hus) hplain) ?_
  intro r m hread
  obtain ⟨vs, hvs, hr⟩ := hread
  exact derives_ownership howner hvs hr

theorem derives_reference (hp : p.memoize = false) : p.Reads p.reference (ReferenceFrom p.room) := by
  -- on the room for owners behind an `of`
  suffices h : ∀ room, p.Reads (p.referenceWithin room) (ReferenceFrom room) from h p.room
  intro room
  induction room with
  | zero =>
    intro i
    rw [referenceWithin, keptReference_eq hp]
    exact (derives_ownedName (fun _ => .fail _) i).attempt
  | succ room ih =>
    intro i
    rw [referenceWithin, keptReference_eq hp]
    refine (derives_ownedName (fun j => Gives.mono (ih j).attempt ?_) i).attempt
    rintro o k ⟨us, hus, ho⟩
    exact ⟨us, hus, room, rfl, ho⟩

/-! Expressions. -/

theorem derives_literal : p.Reads p.literal LiteralFrom := by
  intro i
  refine .position ?_
  simp only
  have hlt {k : Kind} (hkind : (p.tokenAt i).kind = k) (hk : k ≠ .stop) : i < p.size :=
    lt_size_of_kindAt hkind hk
  split
  · next hkind =>
    split
    · exact .fail _
    · next n hn =>
      refine (gives_advance (hlt hkind (by decide))).bind' ?_
      intro token j hread
      obtain ⟨rfl, htoken⟩ := hread
      refine gives_at? (.ite' (fun h => ?_) fun _ => .pure' ⟨_, htoken, .int hkind hn⟩)
      have hinch := eq_of_beq h
      refine (gives_advance (lt_size_of_kindAt hinch (by decide))).bind' ?_
      intro inch k hread
      obtain ⟨rfl, hinch'⟩ := hread
      exact .pure' ⟨_, htoken.append hinch', .inches hkind hn hinch⟩
  · next hkind =>
    refine (gives_advance (hlt hkind (by decide))).bind' ?_
    intro token j hread
    obtain ⟨rfl, htoken⟩ := hread
    exact .pure' ⟨_, htoken, .text hkind⟩
  · next hkind =>
    split
    · exact .fail _
    · next bs hbs =>
      refine (gives_advance (hlt hkind (by decide))).bind' ?_
      intro token j hread
      obtain ⟨rfl, htoken⟩ := hread
      exact .pure' ⟨_, htoken, .bytes hkind hbs⟩
  · next hkind =>
    split
    · exact .fail _
    · next n d hnd =>
      refine (gives_advance (hlt hkind (by decide))).bind' ?_
      intro token j hread
      obtain ⟨rfl, htoken⟩ := hread
      exact .pure' ⟨_, htoken, .ratio hkind hnd⟩
  · next hkind =>
    refine (gives_advance (hlt hkind (by decide))).bind' ?_
    intro token j hread
    obtain ⟨rfl, htoken⟩ := hread
    exact .pure' ⟨_, htoken, .null hkind⟩
  · exact .fail _

theorem derives_literalOrSlot : p.Reads p.literalOrSlot (OperandFrom p.room) := by
  intro i
  refine .position ((derives_literal i).bind' ?_)
  intro owner j hread
  obtain ⟨ts, hts, howner⟩ := hread
  refine .position (.ite' (fun h => ?_) fun _ => .pure' ⟨ts, hts, .literal howner⟩)
  have hkind : p.kindAt j = .possessive := eq_of_beq (Bool.and_eq_true_iff.1 h).1
  refine (gives_advance (lt_size_of_kindAt hkind (by decide))).bind' ?_
  intro apostrophe k hread
  obtain ⟨rfl, hapostrophe⟩ := hread
  refine (derives_longName k).bind' ?_
  intro name l hread
  obtain ⟨us, hus, hname, hcovers⟩ := hread
  have hall := hts.append (hapostrophe.append hus)
  refine (gives_spanOver hall (List.append_ne_nil_of_right_ne_nil _ (List.cons_ne_nil _ _))).bind' ?_
  intro span m hread
  obtain ⟨rfl, rfl⟩ := hread
  rw [hcovers]
  exact .pure' ⟨_, hall, .slot howner hkind hname⟩

theorem derives_primary (hp : p.memoize = false) : p.Reads p.primary (OperandFrom p.room) := by
  obtain ⟨x, hx⟩ := referenceWithin_eq_attempt hp p.room
  have hreference := derives_reference hp
  intro i
  rw [reference, hx] at hreference
  rw [primary, reference, hx]
  refine .outcome_attempt (hreference i) ?_ (derives_literalOrSlot i)
  intro r j hread
  obtain ⟨ts, hts, hr⟩ := hread
  exact .pure' ⟨ts, hts, .reference hr⟩

/-- Joining operands keeps what the tokens taken so far derive. -/
theorem derives_joined {operator : Nat → Option (MathOp × Nat)} {factor : Bool}
    {operand : Rule Expr} (hfinds : p.Finds operator factor)
    (hoperand : p.Reads operand (ArithmeticFrom p.room)) {left : Expr} {fuel : Nat}
    (htook : p.Took first ts i) (hleft : ArithmeticFrom p.room left ts) :
    (joined operator operand fuel left).Gives i fun e j =>
      ∃ us, p.Took first us j ∧ ArithmeticFrom p.room e us :=
  gives_joined hfinds hoperand (fun _ hl ho hr => .math hl ho hr) htook hleft

theorem derives_term (hp : p.memoize = false) : p.Reads p.term (ArithmeticFrom p.room) := by
  have hprimary : p.Reads p.primary (ArithmeticFrom p.room) := fun i =>
    (derives_primary hp i).mono fun _ _ ⟨ts, hts, h⟩ => ⟨ts, hts, .operand h⟩
  intro i
  refine (hprimary i).bind' ?_
  intro left j hread
  obtain ⟨ts, hts, hleft⟩ := hread
  exact derives_joined finds_factorOperator hprimary hts hleft

theorem derives_arithmetic (hp : p.memoize = false) : p.Reads p.arithmetic (ArithmeticFrom p.room) := by
  intro i
  rw [arithmetic, keptExpression_eq hp]
  refine ((derives_term hp i).bind' ?_).attempt
  intro left j hread
  obtain ⟨ts, hts, hleft⟩ := hread
  exact derives_joined finds_termOperator (derives_term hp) hts hleft

/-- What is read as arithmetic is grouped as it should be. -/
theorem derives_grouped (hp : p.memoize = false) :
    p.Reads p.arithmetic fun e ts => ArithmeticFrom p.room e ts ∧ e.Arithmetic := by
  intro i
  refine ((derives_arithmetic hp i).and (reads_arithmetic hp i)).mono ?_
  rintro e j ⟨⟨ts, hts, he⟩, us, -, -, hgrouped⟩
  exact ⟨ts, hts, he, hgrouped⟩

theorem derives_expression (hp : p.memoize = false) : p.Reads p.expression (ExprFrom p.room) := by
  intro i
  rw [expression, keptExpression_eq hp]
  refine Gives.attempt (.firstOf_cons ?_ (.firstOf_cons ?_ .firstOf_nil))
  · refine (derives_grouped hp i).bind' ?_
    intro left j hread
    obtain ⟨ts, hts, hfirst, hleft⟩ := hread
    refine (reads_comparison j).bind' ?_
    intro op k hread
    obtain ⟨os, hos, hop⟩ := hread
    refine (derives_grouped hp k).bind' ?_
    intro right l hread
    obtain ⟨us, hus, hsecond, hright⟩ := hread
    exact .pure' ⟨_, hts.append (hos.append hus),
      .comparison (.comparison hfirst hop hsecond hleft hright)⟩
  · refine (derives_grouped hp i).mono ?_
    intro e j hread
    obtain ⟨ts, hts, he, hgrouped⟩ := hread
    exact ⟨ts, hts, .arithmetic he hgrouped⟩

/-- `add <expr> to <ref>` and `subtract <expr> from <ref>`, behind their verb. -/
theorem derives_sum (hp : p.memoize = false) {inPlace : Bool} {op : MathOp} {verb : Token} {k : Kind}
    (hverb : (op, verb.kind, k) ∈ sumVerbs) (htook : p.Took first [verb] i) :
    (do let operand ← p.expression
        let _ ← p.eat k
        let target ← p.reference
        pure (Expr.update inPlace op operand target (← p.spanFrom first))).Gives i
      fun e j => ∃ us, p.Took first us j ∧ ActionFrom p.room inPlace e us := by
  have hkinds : ∀ e ∈ sumVerbs, e.2.2 ≠ .stop := by decide
  refine (derives_expression hp i).bind' ?_
  intro operand j hread
  obtain ⟨ts, hts, hoperand⟩ := hread
  refine (reads_eat (hkinds _ hverb) j).bind' ?_
  intro preposition l hread
  obtain ⟨_, hpreposition, rfl, rfl⟩ := hread
  refine (derives_reference hp l).bind' ?_
  intro target m hread
  obtain ⟨us, hus, htarget⟩ := hread
  have hall := htook.append (hts.append (hpreposition.append hus))
  refine (gives_spanOver hall (List.cons_ne_nil _ _)).bind' ?_
  intro span n hread
  obtain ⟨rfl, rfl⟩ := hread
  exact .pure' ⟨_, hall, .sum hverb hoperand htarget⟩

/-- `multiply <ref> by <expr>` and `divide <ref> by <expr>`, behind their verb. -/
theorem derives_factor (hp : p.memoize = false) {inPlace : Bool} {op : MathOp} {verb : Token}
    (hverb : (op, verb.kind) ∈ factorVerbs) (htook : p.Took first [verb] i) :
    (do let target ← p.reference
        let _ ← p.eat .byWord
        let operand ← p.expression
        pure (Expr.update inPlace op operand target (← p.spanFrom first))).Gives i
      fun e j => ∃ us, p.Took first us j ∧ ActionFrom p.room inPlace e us := by
  refine (derives_reference hp i).bind' ?_
  intro target j hread
  obtain ⟨ts, hts, htarget⟩ := hread
  refine (reads_eat (by decide) j).bind' ?_
  intro preposition l hread
  obtain ⟨_, hpreposition, hby, rfl⟩ := hread
  refine (derives_expression hp l).bind' ?_
  intro operand m hread
  obtain ⟨us, hus, hoperand⟩ := hread
  have hall := htook.append (hts.append (hpreposition.append hus))
  refine (gives_spanOver hall (List.cons_ne_nil _ _)).bind' ?_
  intro span n hread
  obtain ⟨rfl, rfl⟩ := hread
  exact .pure' ⟨_, hall, .factor hverb htarget hby hoperand⟩

theorem derives_arithmeticPhrase (hp : p.memoize = false) (inPlace : Bool) :
    p.Reads (p.arithmeticPhrase inPlace) (ActionFrom p.room inPlace) := by
  intro i
  refine .position ?_
  have hverb {k : Kind} (hkind : p.kindAt i = k) (hk : k ≠ .stop) :
      p.advance.Gives i fun a j => a.kind = k ∧ p.Took i [a] j := by
    refine (gives_advance (lt_size_of_kindAt hkind hk)).mono ?_
    intro a j hread
    obtain ⟨rfl, htook⟩ := hread
    exact ⟨hkind, htook⟩
  split
  · next hkind =>
    refine (hverb hkind (by decide)).bind' fun verb j hread => ?_
    exact derives_sum hp (by rw [hread.1]; decide) hread.2
  · next hkind =>
    refine (hverb hkind (by decide)).bind' fun verb j hread => ?_
    exact derives_sum hp (by rw [hread.1]; decide) hread.2
  · next hkind =>
    refine (hverb hkind (by decide)).bind' fun verb j hread => ?_
    exact derives_factor hp (by rw [hread.1]; decide) hread.2
  · next hkind =>
    refine (hverb hkind (by decide)).bind' fun verb j hread => ?_
    exact derives_factor hp (by rw [hread.1]; decide) hread.2
  · exact .fail _

theorem derives_assignment (hp : p.memoize = false) (inPlace : Bool) :
    p.Reads p.assignment (ActionFrom p.room inPlace) := by
  intro i
  refine .position (gives_at? (.ite' (fun h => ?_) fun _ => ?_))
  · have hkind := eq_of_beq h
    refine (gives_advance (lt_size_of_kindAt hkind (by decide))).bind' ?_
    intro verb j hread
    obtain ⟨rfl, hverb⟩ := hread
    refine (derives_expression hp j).bind' ?_
    intro value k hread
    obtain ⟨ts, hts, hvalue⟩ := hread
    refine (reads_eatAny (by decide) k).bind' ?_
    intro preposition l hread
    obtain ⟨_, hpreposition, hinto, rfl⟩ := hread
    refine (derives_reference hp l).bind' ?_
    intro target m hread
    obtain ⟨us, hus, htarget⟩ := hread
    have hall := hverb.append (hts.append (hpreposition.append hus))
    refine (gives_spanOver hall (List.cons_ne_nil _ _)).bind' ?_
    intro span n hread
    obtain ⟨rfl, rfl⟩ := hread
    exact .pure' ⟨_, hall, .put hkind hvalue hinto htarget⟩
  · refine (reads_eat (by decide) i).bind' ?_
    intro verb j hread
    obtain ⟨_, hverb, hkind, rfl⟩ := hread
    refine (derives_reference hp j).bind' ?_
    intro target k hread
    obtain ⟨ts, hts, htarget⟩ := hread
    refine (reads_eatAny (by decide) k).bind' ?_
    intro copula l hread
    obtain ⟨_, hcopula, hkinds, rfl⟩ := hread
    refine (reads_skipTo l).bind' ?_
    intro _ m hread
    obtain ⟨particle, hparticle, hto⟩ := hread
    refine (derives_expression hp m).bind' ?_
    intro value n hread
    obtain ⟨us, hus, hvalue⟩ := hread
    have hall := hverb.append (hts.append (hcopula.append (hparticle.append hus)))
    refine (gives_spanOver hall (List.cons_ne_nil _ _)).bind' ?_
    intro span q hread
    obtain ⟨rfl, rfl⟩ := hread
    have hlet : ActionFrom p.room inPlace _ _ := .letBe hkind htarget hkinds hto hvalue
    exact .pure' ⟨_, hall, hlet⟩

/-! Declarations. -/

theorem derives_initializer (hp : p.memoize = false) :
    p.Reads p.initializer fun e ts => InitializerFrom p.room (some e) ts := by
  intro i
  refine (reads_eat (by decide) i).bind' ?_
  intro equal j hread
  obtain ⟨_, hequal, hkind, rfl⟩ := hread
  refine (reads_skipTo j).bind' ?_
  intro _ k hread
  obtain ⟨particle, hparticle, hto⟩ := hread
  refine (derives_expression hp k).mono ?_
  intro e l hread
  obtain ⟨us, hus, he⟩ := hread
  have hinitializer := InitializerFrom.some hkind hto he
  exact ⟨_, hequal.append (hparticle.append hus), hinitializer⟩

theorem derives_variableDeclaration (hp : p.memoize = false) :
    p.Reads p.variableDeclaration (DeclarationFrom p.room) := by
  intro i
  refine .position ((reads_eat (by decide) i).bind' ?_)
  intro the j hread
  obtain ⟨_, hthe, hkind, rfl⟩ := hread
  refine (derives_longName j).bind' ?_
  intro name k hread
  obtain ⟨ts, hts, hname, -⟩ := hread
  refine (reads_eatAny (by decide) k).bind' ?_
  intro verb l hread
  obtain ⟨_, hverb, hkinds, rfl⟩ := hread
  refine (derives_typeName l).bind' ?_
  intro type m hread
  obtain ⟨us, hus, htype⟩ := hread
  have hdeclared {value : Option Expr} {vs : List Token} {n : Nat} (hvs : p.Took m vs n)
      (hvalue : InitializerFrom p.room value vs) :
      (do pure (VariableDeclaration.mk name.1 type value (← p.spanFrom i))).Gives n
        fun d j => ∃ ts, p.Took i ts j ∧ DeclarationFrom p.room d ts := by
    have hall := hthe.append (hts.append (hverb.append (hus.append hvs)))
    refine (gives_spanOver hall (List.cons_ne_nil _ _)).bind' ?_
    intro span q hread
    obtain ⟨rfl, rfl⟩ := hread
    have hd := DeclarationFrom.declared hkind hname hkinds htype hvalue
    exact .pure' ⟨_, hall, hd⟩
  -- a value that cannot be read is left for what follows
  refine .outcome_attempt (derives_initializer hp m).attempt ?_ (hdeclared took_nil .none)
  intro value n hread
  obtain ⟨vs, hvs, hvalue⟩ := hread
  exact hdeclared hvs hvalue

theorem derives_variableStatement (hp : p.memoize = false) :
    p.Reads p.variableStatement (PlainFrom p.room) := by
  intro i
  refine (derives_variableDeclaration hp i).bind' ?_
  intro d j hread
  obtain ⟨ts, hts, hd⟩ := hread
  exact .pure' ⟨ts, hts, .declared hd⟩

theorem derives_unitAlias : p.Reads p.unitAlias (PlainFrom p.room) := by
  intro i
  refine .position ((reads_eat (by decide) i).bind' ?_)
  intro the j hread
  obtain ⟨_, hthe, hkind, rfl⟩ := hread
  refine (derives_longName j).bind' ?_
  intro name k hread
  obtain ⟨ts, hts, hname, hcovers⟩ := hread
  refine (reads_eat (by decide) k).bind' ?_
  intro verb l hread
  obtain ⟨_, hverb, hverb', rfl⟩ := hread
  refine (reads_eat (by decide) l).bind' ?_
  intro amount m hread
  obtain ⟨_, hamount, hamount', rfl⟩ := hread
  split
  · exact .fail _
  · next n hn =>
    refine (reads_eat (by decide) m).bind' ?_
    intro unit q hread
    obtain ⟨_, hunit, hunit', rfl⟩ := hread
    have hall := hthe.append (hts.append (hverb.append (hamount.append hunit)))
    refine (gives_spanOver hall (List.cons_ne_nil _ _)).bind' ?_
    intro span q hread
    obtain ⟨rfl, rfl⟩ := hread
    rw [hcovers]
    exact .pure' ⟨_, hall, .unit hkind hname hverb' hamount' hn hunit'⟩

theorem derives_constantDeclaration : p.Reads p.constantDeclaration (PlainFrom p.room) := by
  intro i
  refine .position ((reads_eat (by decide) i).bind' ?_)
  intro the j hread
  obtain ⟨_, hthe, hkind, rfl⟩ := hread
  refine (derives_longName j).bind' ?_
  intro name k hread
  obtain ⟨ts, hts, hname, hcovers⟩ := hread
  refine (reads_eat (by decide) k).bind' ?_
  intro verb l hread
  obtain ⟨_, hverb, hverb', rfl⟩ := hread
  refine (derives_literal l).bind' ?_
  intro value m hread
  obtain ⟨us, hus, hvalue⟩ := hread
  have hall := hthe.append (hts.append (hverb.append hus))
  refine (gives_spanOver hall (List.cons_ne_nil _ _)).bind' ?_
  intro span n hread
  obtain ⟨rfl, rfl⟩ := hread
  rw [hcovers]
  exact .pure' ⟨_, hall, .constant hkind hname hverb' hvalue⟩

theorem derives_pointerDeclaration : p.Reads p.pointerDeclaration (PlainFrom p.room) := by
  intro i
  refine .position ((reads_eat (by decide) i).bind' ?_)
  intro article j hread
  obtain ⟨_, harticle, hkind, rfl⟩ := hread
  refine (derives_longName j).bind' ?_
  intro name k hread
  obtain ⟨ts, hts, hname, -⟩ := hread
  refine (gives_spanOver (harticle.append hts) (List.cons_ne_nil _ _)).bind' ?_
  intro span l hread
  obtain ⟨rfl, rfl⟩ := hread
  refine (reads_eat (by decide) l).bind' ?_
  intro verb m hread
  obtain ⟨_, hverb, hverb', rfl⟩ := hread
  refine (reads_eat (by decide) m).bind' ?_
  intro one n hread
  obtain ⟨_, hone, hone', rfl⟩ := hread
  refine .position (.ite' (fun hpointer => ?_) fun _ => .fail _)
  have hidentifier : p.kindAt n = .identifier := eq_of_beq (Bool.and_eq_true_iff.1 hpointer).1
  refine (gives_advance (lt_size_of_kindAt hidentifier (by decide))).bind' ?_
  intro pointer q hread
  obtain ⟨rfl, hpointer'⟩ := hread
  refine (reads_eat (by decide) q).bind' ?_
  intro particle q' hread
  obtain ⟨_, hparticle, hto, rfl⟩ := hread
  refine (derives_typeName q').bind' ?_
  intro base q'' hread
  obtain ⟨us, hus, hbase⟩ := hread
  have hall := harticle.append (hts.append (hverb.append (hone.append (hpointer'.append
    (hparticle.append hus)))))
  refine (gives_spanOver hall (List.cons_ne_nil _ _)).bind' ?_
  intro span _ hread
  obtain ⟨rfl, rfl⟩ := hread
  exact .pure' ⟨_, hall, .pointer hkind hname hverb' hone' hpointer hto hbase⟩

theorem gives_here {f : Kind → Rule β} {Q : β → Nat → Prop} (h : (f (p.kindAt i)).Gives i Q) :
    (p.here >>= f).Gives i Q := by
  intro s b t hs0 hs
  subst hs0
  exact h s b t rfl hs

theorem derives_slotAlias : p.Reads p.slotAlias fun name ts => Aliased (some name) ts := by
  intro i
  refine gives_here ?_
  split
  · next hkind =>
    refine (gives_advance (lt_size_of_kindAt hkind (by decide))).bind' ?_
    intro verb j hread
    obtain ⟨rfl, hverb⟩ := hread
    refine (reads_skipArticles j).bind' ?_
    intro _ k hread
    obtain ⟨article, harticle, hmaybe⟩ := hread
    refine (derives_longName k).bind' ?_
    intro name l hread
    obtain ⟨us, hus, hname, -⟩ := hread
    have hother := Aliased.is hkind hmaybe hname
    exact .pure' ⟨_, hverb.append (harticle.append hus), hother⟩
  · next hkind =>
    refine (gives_advance (lt_size_of_kindAt hkind (by decide))).bind' ?_
    intro preposition j hread
    obtain ⟨rfl, hat⟩ := hread
    refine (reads_eat (by decide) j).bind' ?_
    intro article k hread
    obtain ⟨_, harticle, harticle', rfl⟩ := hread
    refine (derives_longName k).bind' ?_
    intro name l hread
    obtain ⟨us, hus, hname, -⟩ := hread
    exact .pure' ⟨_, hat.append (harticle.append hus), .at hkind harticle' hname⟩
  · exact .fail _

theorem derives_slot : p.Reads p.slot SlotFrom := by
  intro i
  refine .position ((reads_eatAny (by decide) i).bind' ?_)
  intro article j hread
  obtain ⟨_, harticle, hkind, rfl⟩ := hread
  refine (derives_longName j).bind' ?_
  intro name k hread
  obtain ⟨ts, hts, hname, -⟩ := hread
  have hslot {other : Option String} {us : List Token} {l : Nat} (hus : p.Took k us l)
      (hother : Aliased other us) :
      (do pure (Slot.mk name.1 other (article.kind == Kind.someWord) (← p.spanFrom i))).Gives l
        fun s j => ∃ ts, p.Took i ts j ∧ SlotFrom s ts := by
    have hall := harticle.append (hts.append hus)
    refine (gives_spanOver hall (List.cons_ne_nil _ _)).bind' ?_
    intro span m hread
    obtain ⟨rfl, rfl⟩ := hread
    have hs := SlotFrom.slot hkind hname hother
    exact .pure' ⟨_, hall, hs⟩
  refine .outcome_attempt (derives_slotAlias k).attempt ?_ (hslot took_nil .none)
  intro other l hread
  obtain ⟨us, hus, hother⟩ := hread
  exact hslot hus hother

/-- An optional comma and an optional `and`, of which there is at least one. -/
theorem separator_kinds {comma and : List Token}
    (hcomma : comma = [] ∨ ∃ k ∈ [Kind.comma], Says [k] comma)
    (hand : and = [] ∨ ∃ k ∈ [Kind.andWord], Says [k] and) (hne : comma ++ and ≠ []) :
    (comma ++ and).map Token.kind ∈ [[Kind.comma], [.andWord], [.comma, .andWord]] := by
  have hone {k : Kind} {ts : List Token} (h : ∃ k' ∈ [k], Says [k'] ts) : ts.map Token.kind = [k] := by
    obtain ⟨k', hk', hsays⟩ := h
    rwa [List.mem_singleton.1 hk'] at hsays
  rw [List.map_append]
  rcases hcomma with rfl | hcomma <;> rcases hand with rfl | hand
  · exact absurd rfl hne
  · rw [hone hand]
    decide
  · rw [hone hcomma]
    decide
  · rw [hone hcomma, hone hand]
    decide

/-- Further slots, behind one that was taken. -/
theorem derives_moreSlots {s : Slot} {fuel : Nat} (hs : SlotFrom s ts) :
    (p.moreSlots fuel).Gives i fun ss j => ∃ us, p.Took i us j ∧ SlotsFrom (s :: ss) (ts ++ us) := by
  induction fuel generalizing s ts i with
  | zero => exact .pure' ⟨[], took_nil, by rw [List.append_nil]; exact .last hs⟩
  | succ fuel ih =>
    have hnone {i j : Nat} (hj : j = i) : (pure [] : Rule (List Slot)).Gives j fun ss k =>
        ∃ us, p.Took i us k ∧ SlotsFrom (s :: ss) (ts ++ us) :=
      .pure' ⟨[], hj ▸ took_nil, by rw [List.append_nil]; exact .last hs⟩
    unfold moreSlots
    refine .position ((reads_skipAny (by decide) i).bind' ?_)
    intro _ j hread
    obtain ⟨comma, hcomma, hcomma'⟩ := hread
    refine (reads_skipAny (by decide) j).bind' ?_
    intro _ k hread
    obtain ⟨and, hand, hand'⟩ := hread
    refine .position (.ite' (fun h => hnone h) fun hne => ?_)
    have hseparator := hcomma.append hand
    have hne' : comma ++ and ≠ [] := fun h => hne (by rw [hseparator.2, h]; rfl)
    refine .outcome (derives_slot k) ?_ fun _ => .moveTo (hnone rfl)
    intro next l hread
    obtain ⟨us, hus, hnext⟩ := hread
    refine (ih hnext).bind' ?_
    intro later m hread
    obtain ⟨vs, hvs, hlater⟩ := hread
    refine .pure' ⟨_, hseparator.append (hus.append hvs), ?_⟩
    exact .more hs (separator_kinds hcomma' hand' hne') hlater

theorem derives_slotList : p.Reads p.slotList SlotsFrom := by
  intro i
  refine (derives_slot i).bind' ?_
  intro first j hread
  obtain ⟨ts, hts, hfirst⟩ := hread
  refine (derives_moreSlots hfirst).bind' ?_
  intro later k hread
  obtain ⟨us, hus, hlater⟩ := hread
  exact .pure' ⟨_, hts.append hus, hlater⟩

theorem derives_shapeDeclaration : p.Reads p.shapeDeclaration (PlainFrom p.room) := by
  intro i
  refine .position ((reads_eat (by decide) i).bind' ?_)
  intro article j hread
  obtain ⟨_, harticle, hkind, rfl⟩ := hread
  refine (derives_longName j).bind' ?_
  intro name k hread
  obtain ⟨ts, hts, hname, -⟩ := hread
  refine (reads_eat (by decide) k).bind' ?_
  intro verb l hread
  obtain ⟨_, hverb, hverb', rfl⟩ := hread
  refine (derives_typeName l).bind' ?_
  intro base m hread
  obtain ⟨us, hus, hbase⟩ := hread
  have hhead := harticle.append (hts.append (hverb.append hus))
  refine gives_at? (.ite' (fun h => ?_) fun _ => ?_)
  · have hwith := eq_of_beq h
    refine (gives_advance (lt_size_of_kindAt hwith (by decide))).bind' ?_
    intro preposition n hread
    obtain ⟨rfl, hpreposition⟩ := hread
    refine (derives_slotList n).bind' ?_
    intro slots q hread
    obtain ⟨vs, hvs, hslots⟩ := hread
    have hall := harticle.append (hts.append (hverb.append (hus.append (hpreposition.append hvs))))
    refine (gives_spanOver hall (List.cons_ne_nil _ _)).bind' ?_
    intro span _ hread
    obtain ⟨rfl, rfl⟩ := hread
    have hshape : PlainFrom p.room _ _ := .shapeWith hkind hname hverb' hbase hwith hslots
    exact .pure' ⟨_, hall, hshape⟩
  · refine (gives_spanOver hhead (List.cons_ne_nil _ _)).bind' ?_
    intro span _ hread
    obtain ⟨rfl, rfl⟩ := hread
    exact .pure' ⟨_, hhead, .shape hkind hname hverb' hbase⟩

theorem derives_shapeOfSlots : p.Reads p.shapeOfSlots (PlainFrom p.room) := by
  intro i
  refine .position ((reads_eat (by decide) i).bind' ?_)
  intro article j hread
  obtain ⟨_, harticle, hkind, rfl⟩ := hread
  refine (derives_longName j).bind' ?_
  intro name k hread
  obtain ⟨ts, hts, hname, -⟩ := hread
  refine (reads_eat (by decide) k).bind' ?_
  intro verb l hread
  obtain ⟨_, hverb, hverb', rfl⟩ := hread
  refine (derives_slotList l).bind' ?_
  intro slots m hread
  obtain ⟨us, hus, hslots⟩ := hread
  have hall := harticle.append (hts.append (hverb.append hus))
  refine (gives_spanOver hall (List.cons_ne_nil _ _)).bind' ?_
  intro span _ hread
  obtain ⟨rfl, rfl⟩ := hread
  exact .pure' ⟨_, hall, .shapeOf hkind hname hverb' hslots⟩

/-! Statements. -/

theorem derives_resultStatement (hp : p.memoize = false) :
    p.Reads p.resultStatement (PlainFrom p.room) := by
  intro i
  have hresult {opening : List Token} {j : Nat} (htook : p.Took i opening j)
      (hopening : opening.map Token.kind ∈ [[Kind.resultWord, .isWord], [.returnWord]])
      (hne : opening ≠ []) :
      (do let value ← p.expression
          pure (Stmt.result value (← p.spanFrom i))).Gives j
        fun s k => ∃ ts, p.Took i ts k ∧ PlainFrom p.room s ts := by
    refine (derives_expression hp j).bind' ?_
    intro value k hread
    obtain ⟨ts, hts, hvalue⟩ := hread
    have hall := htook.append hts
    refine (gives_spanOver hall (List.append_ne_nil_of_left_ne_nil hne _)).bind' ?_
    intro span _ hread
    obtain ⟨rfl, rfl⟩ := hread
    exact .pure' ⟨_, hall, .result hopening hvalue⟩
  refine .position (gives_at? (.ite' (fun h => ?_) fun _ => ?_))
  · have hkind := eq_of_beq h
    refine (gives_advance (lt_size_of_kindAt hkind (by decide))).bind' ?_
    intro word j hread
    obtain ⟨rfl, hword⟩ := hread
    refine (reads_eat (by decide) j).bind' ?_
    intro verb k hread
    obtain ⟨_, hverb, hverb', rfl⟩ := hread
    have hkinds : [p.tokenAt i, verb].map Token.kind = [.resultWord, .isWord] := by
      simp only [List.map_cons, List.map_nil, hverb']
      rw [show (p.tokenAt i).kind = .resultWord from hkind]
    exact hresult (hword.append hverb) (hkinds ▸ List.mem_cons_self) (List.cons_ne_nil _ _)
  · refine (reads_eat (by decide) i).bind' ?_
    intro word j hread
    obtain ⟨_, hword, hkind, rfl⟩ := hread
    have hkinds : [word].map Token.kind = [.returnWord] := by
      simp only [List.map_cons, List.map_nil, hkind]
    exact hresult hword (by rw [hkinds]; decide) (List.cons_ne_nil _ _)

end Phrase

end Prose.Grammar
