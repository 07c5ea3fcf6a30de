import Prose.Proofs.Grammar.Alike
import Prose.Proofs.Memoization
import Prose.Proofs.Token.Runs

/- What the reading of a sentence depends on. How much room there is makes no difference as
   long as there is room for all tokens, because every level of nesting takes a token: a
   branch is shorter than its condition. And where a run of tokens ends is only part of what
   is said about a mismatch, not of what is read. -/
namespace Prose.Grammar

open Rule

variable {α : Type}

namespace Phrase.Resembles

variable {p q : Phrase} {i n : Nat}

/-- A rule that only fails does the same wherever it does so. -/
theorem failAt (j : Nat) (what : String) :
    p.AlikeAt i n (do moveTo j; (Rule.fail what : Rule α)) (do moveTo j; Rule.fail what) :=
  fun _ _ => ⟨rfl, fun _ _ h => by cases (Prod.mk.inj h).1⟩

theorem statementSentence {x y : Rule Stmt} (hx : p.Alike n x y) :
    p.Alike n (Grammar.statementSentence x) (Grammar.statementSentence y) :=
  .bind' hx fun _ => .pure' _

theorem expressionStatement {x y : Rule Expr} (hx : p.Alike n x y) :
    p.Alike n (Grammar.expressionStatement x) (Grammar.expressionStatement y) :=
  .bind' hx fun _ => .pure' _

variable (h : p.Resembles q)

include h

theorem resultStatement : p.Alike n p.resultStatement q.resultStatement := by
  refine .position fun start hn _ => h.whenAt (by decide) (fun hlt => ?_) ?_
  · refine (h.advance (Nat.le_succ_of_le hn) hlt).bind' fun _ => .bind' (h.eat (by decide)) fun _ => ?_
    exact .bind' h.expression fun _ => .bind' (h.spanFrom hlt) fun _ => .pure' _
  · refine h.opened (by decide) hn fun hlt _ => .bind' h.expression fun _ => ?_
    exact .bind' (h.spanFrom hlt) fun _ => .pure' _

/-! Conditions. -/

theorem condition (stop : Nat) : p.Alike n (p.condition stop) (q.condition stop) := by
  have hwhole : p.Alike n (p.wholeComparison stop) (q.wholeComparison stop) := by
    rw [Phrase.wholeComparison_eq, Phrase.wholeComparison_eq]
    refine .bind' h.expression fun e i hn hi s hs => ⟨rfl, fun a t ht => ?_⟩
    obtain ⟨-, rfl⟩ := Prod.mk.inj ht
    omega
  refine .outcome_attempt hwhole.attempt fun read => ?_
  cases read with
  | some e => exact .pure' e
  | none =>
    refine .position fun first hn hi => ?_
    rw [h.between]
    exact .pure' hn hi _

/-- Room for a level is left behind the first token, and what stands there is shorter. -/
theorem branchStatement (hn : 2 ≤ n) : p.Alike n p.branchStatement q.branchStatement := by
  refine .position fun start hstart hsize => ?_
  have hroom : q.room = 0 ↔ p.room = 0 := by
    rcases h.room with heq | ⟨hp, hq⟩
    · rw [heq]
    · omega
  have hparts {part : List Token} (hpart : part ∈ Token.splitAt .semicolon (p.between start p.size)) :
      part ≠ [] ∧ part.length ≤ p.size - start :=
    ⟨Token.ne_nil_of_mem_splitAt hpart,
      (Token.sublist_of_mem_splitAt hpart).length_le.trans (List.length_take_le _ _)⟩
  have hread : (Token.splitAt .semicolon (p.between start p.size)).map q.branch =
      (Token.splitAt .semicolon (p.between start p.size)).map p.branch := by
    refine List.map_congr_left fun part hpart => h.branch part (hparts hpart).1 ?_
    have := (hparts hpart).2
    omega
  simp only [hroom, h.size, h.between, hread]
  refine .ite' (fun _ => .fail _) fun _ => .ite' (fun _ => .fail _) fun hne => ?_
  have hlt : start < p.size := by
    obtain ⟨part, hpart⟩ := List.exists_mem_of_ne_nil _ fun hnil => hne (List.isEmpty_iff.2 hnil)
    obtain ⟨hpart', hle⟩ := hparts hpart
    have := List.length_pos_iff.2 hpart'
    omega
  refine .moveTo (by omega) (Nat.le_refl _) ?_
  split
  · exact .pure' _
  · exact .bind' (h.spanFrom hlt) fun _ => .pure' _

theorem conditional : p.Alike n p.conditional q.conditional := by
  refine .position fun start hn _ => h.opened (by decide) hn fun hlt _ => ?_
  refine .position fun first hn hi => ?_
  rw [h.find?]
  split
  · rw [h.size]
    exact failAt _ _
  · next separator hfound =>
    obtain ⟨hle, hsize, -⟩ := find?_eq_some hfound
    refine .ite' (fun _ => .fail _) fun hne => ?_
    refine AlikeAt.bind' (h.condition separator first hn hi) fun test i hn hi => ?_
    refine (AlikeAt.moveTo (Nat.le_refl (separator + 1)) hsize ?_).mono (by omega)
    refine .bind' (h.branchStatement (by omega)) fun branch => ?_
    exact .bind' (h.spanFrom hlt) fun _ => .pure' _

/-! Headers and calls. -/

theorem header {start first : Nat} (hstart : start < p.size) (separator : Option Nat) (hn : n ≤ p.size)
    (hstop : ∀ i ∈ separator, i < p.size) :
    p.AlikeAt i n (p.header start first separator) (q.header start first separator) := by
  have hle : separator.getD p.size ≤ p.size := by
    cases separator with
    | none => exact Nat.le_refl _
    | some k => exact Nat.le_of_lt (hstop k rfl)
  have hlast : max (separator.getD p.size - 1) start < p.size := by omega
  simp only [Phrase.header, h.size, h.between, h.tokenAt hstart, h.tokenAt hlast]
  cases markerPhrase [.intoWord] (p.between first (separator.getD p.size)) with
  | error k => exact failAt _ _
  | ok m => exact .ite' (fun _ => failAt _ _) fun _ => .moveTo hn (Nat.le_refl _) (.pure' _)

theorem keywordHeader : p.Alike n p.keywordHeader q.keywordHeader := by
  refine .position fun start hn _ => ?_
  refine h.openedAny (by decide) _ (Nat.le_succ_of_le hn) fun hlt keyword => ?_
  refine .position fun first hfirst hsize => ?_
  simp only [h.find?]
  refine .ite' (fun _ => ?_) fun _ => ?_
  · split
    · exact .fail _
    · next separator hfound =>
      exact h.header hlt _ (by omega) fun k hk => (find?_eq_some (hfound.trans hk)).2.1
  · exact h.header hlt _ (by omega) fun k hk => (find?_eq_some hk).2.1

theorem bareHeader : p.Alike n p.bareHeader q.bareHeader := by
  refine .position fun start hn _ => ?_
  rw [h.find?]
  split
  · exact .fail _
  · next arrow hfound =>
    obtain ⟨hle, hlt, -⟩ := find?_eq_some hfound
    refine h.header (by omega) _ (by omega) fun k hk => ?_
    obtain rfl := Option.some.inj hk
    exact hlt

theorem invocation : p.Alike n p.invocation q.invocation := by
  refine .position fun start hn hsize => ?_
  simp only [h.size, h.between]
  split
  · exact failAt _ _
  · next m hm =>
    refine .ite' (fun _ => .fail _) fun hwords => .moveTo (by omega) (Nat.le_refl _) ?_
    have hne := ne_nil_of_words hm fun hnil => hwords (List.isEmpty_iff.2 hnil)
    have hlt : start < p.size := by
      refine Nat.lt_of_le_of_ne hsize fun heq => hne ?_
      simp [Phrase.between, heq]
    exact .bind' (h.spanFrom hlt) fun _ => .pure' _

/-! Whole sentences. -/

theorem sentenceOf (entry : Entry) : p.Alike n (p.sentenceOf entry) (q.sentenceOf entry) := by
  cases entry with
  | reference =>
    exact statementSentence (h.firstComplete_cons h.pointerDeclaration
      (h.firstComplete_cons h.shapeDeclaration (h.firstComplete_cons h.shapeOfSlots .firstOf_nil)))
  | declaration =>
    exact statementSentence (h.firstComplete_cons h.variableStatement
      (h.firstComplete_cons h.unitAlias (h.firstComplete_cons h.constantDeclaration .firstOf_nil)))
  | expression =>
    exact statementSentence (expressionStatement (h.firstComplete_cons (h.arithmeticPhrase true)
      (h.firstComplete_cons h.assignment .firstOf_nil)))
  | conditional => exact statementSentence (h.complete h.conditional)
  | labeled => exact h.complete h.keywordHeader
  | result => exact statementSentence (h.complete h.resultStatement)
  | invocation => exact h.firstComplete_cons h.bareHeader (h.firstComplete_cons h.invocation .firstOf_nil)

theorem sentence : p.Alike n p.sentence q.sentence := by
  rw [Phrase.sentence, Phrase.sentence, h.kindAt]
  split
  · exact .fail _
  · exact h.sentenceOf _

/-! Bare nodes. -/

omit h in
theorem expressionNode {x y : Rule Expr} (hx : p.Alike n x y) :
    p.Alike n (Grammar.expressionNode x) (Grammar.expressionNode y) :=
  .bind' hx fun _ => .pure' _

theorem bare (entry : Option Entry) : p.Alike n (p.bare entry) (q.bare entry) := by
  have hrefused : p.Alike n (fun s => (none, s) : Rule Node) (fun s => (none, s)) :=
    fun _ _ _ _ _ => ⟨rfl, fun _ _ h => by cases (Prod.mk.inj h).1⟩
  cases entry with
  | none => exact h.firstComplete_cons (expressionNode h.expression) .firstOf_nil
  | some entry =>
    cases entry with
    | reference =>
      refine h.firstComplete_cons (.bind' h.plainReference fun _ => .pure' _) ?_
      exact h.firstComplete_cons (expressionNode h.expression) .firstOf_nil
    | declaration =>
      exact h.firstComplete_cons (.bind' h.variableDeclaration fun _ => .pure' _) .firstOf_nil
    | expression =>
      exact h.firstComplete_cons (expressionNode (h.arithmeticPhrase false))
        (h.firstComplete_cons (expressionNode h.assignment) .firstOf_nil)
    | conditional | labeled | result | invocation => exact hrefused

theorem bareOrSentence (entry : Option Entry) :
    p.Alike n (p.bareOrSentence entry) (q.bareOrSentence entry) :=
  .firstOf_cons (.bind' (h.bare entry) fun _ => .pure' _)
    (.firstOf_cons (.bind' h.sentence fun _ => .pure' _) .firstOf_nil)

/-! What is read. -/

omit h in
theorem run_eq {x y : Rule α} (hx : p.Alike 0 x y) : y {} = x {} :=
  (hx 0 (Nat.le_refl 0) (Nat.zero_le _) {} rfl).1

/-- The same is read, though the end may be somewhere else. -/
theorem toOption_read : (q.read q.sentence).toOption = (p.read p.sentence).toOption := by
  simp only [Phrase.read, run_eq h.sentence]
  rcases p.sentence {} with ⟨_ | a, t⟩ <;> rfl

/-- Where the end is the same, so is what is said about a mismatch. -/
theorem read_eq (hstop : q.stopAt = p.stopAt) {x y : Rule α} (hx : p.Alike 0 x y) :
    q.read y = p.read x := by
  have htoken (i : Nat) : q.tokenAt i = p.tokenAt i := by
    simp only [Phrase.tokenAt, Phrase.stop, h.tokens, hstop]
  simp only [Phrase.read, run_eq hx, htoken]

end Phrase.Resembles

/-! Runs of tokens. -/

variable {room room' : Nat} {ts us : List Token}

/-- Parsers that do not differ on any run as short as this one read its branches alike. -/
theorem branchOf_congr {parse parse' : List Token → Except ParseFailure Sentence}
    (h : ∀ us, us.length ≤ ts.length → parse' us = parse us) : branchOf parse' ts = branchOf parse ts := by
  -- on the length of the run, which the body of a header is shorter than
  fun_induction branchOf parse ts with
  | case1 ts e he => rw [branchOf, h ts (Nat.le_refl _), he]
  | case2 ts s hs => rw [branchOf, h ts (Nat.le_refl _), hs]
  | case3 ts label hl => rw [branchOf, h ts (Nat.le_refl _), hl]
  | case4 ts label body hl hlt inner ih =>
    rw [branchOf, h ts (Nat.le_refl _), hl]
    simp only [hlt, if_true, ih fun us hus => h us (by omega)]
    rfl
  | case5 ts label body hl hlt =>
    rw [branchOf, h ts (Nat.le_refl _), hl]
    simp only [hlt, if_false]

/-- Where there is room for all tokens, it is enough that all shorter runs are read alike. -/
theorem sentenceWithin_of_branches (h : ts.length ≤ room + 1) (h' : ts.length ≤ room' + 1)
    (hbranch : ∀ us, us ≠ [] → us.length < ts.length →
      branchWithin false room' us = branchWithin false room us) :
    sentenceWithin false room' ts = sentenceWithin false room ts := by
  have hle : (withoutComments true (ts.filter Token.isSignificant)).length ≤ ts.length :=
    ((withoutComments_sublist true _).trans List.filter_sublist).length_le
  have hresembles : (phraseOf false room (branchWithin false room) true
      (ts.filter Token.isSignificant)).Resembles
      (phraseOf false room' (branchWithin false room') true (ts.filter Token.isSignificant)) :=
    { fresh := rfl
      fresh' := rfl
      tokens := rfl
      room := .inr ⟨hle.trans h, hle.trans h'⟩
      branch := fun us hne hlt => hbranch us hne (Nat.lt_of_lt_of_le hlt hle) }
  rw [sentenceWithin_eq, sentenceWithin_eq]
  exact hresembles.read_eq rfl hresembles.sentence

/-- Room for more levels than there are tokens makes no difference, neither to what is read
    nor to the failures. -/
theorem sentenceWithin_room (memoize : Bool) (h : ts.length ≤ room + 1) (h' : ts.length ≤ room' + 1) :
    sentenceWithin memoize room' ts = sentenceWithin memoize room ts := by
  rw [sentenceWithin_memoize, sentenceWithin_memoize memoize room]
  -- on the room; a branch is shorter than its sentence
  induction room generalizing room' ts with
  | zero =>
    refine sentenceWithin_of_branches h h' fun us hne hlt => ?_
    have := List.length_pos_iff.2 hne
    omega
  | succ room ih =>
    refine sentenceWithin_of_branches h h' fun us hne hlt => ?_
    have := List.length_pos_iff.2 hne
    cases room' with
    | zero => omega
    | succ room' => exact branchOf_congr fun vs hvs => ih (by omega) (by omega)

/-- The same for branches. -/
theorem branchWithin_room (memoize : Bool) (hne : ts ≠ []) (h : ts.length ≤ room)
    (h' : ts.length ≤ room') : branchWithin memoize room' ts = branchWithin memoize room ts := by
  have hpos := List.length_pos_iff.2 hne
  cases room with
  | zero => omega
  | succ room =>
    cases room' with
    | zero => omega
    | succ room' => exact branchOf_congr fun us hus => sentenceWithin_room memoize (by omega) (by omega)

theorem parseSentence_maxDepth {settings : ReadingSettings} {depth : Nat}
    (h : ts.length ≤ settings.maxDepth) (h' : ts.length ≤ depth) :
    parseSentence { settings with maxDepth := depth } ts = parseSentence settings ts :=
  sentenceWithin_room settings.memoize (Nat.le_succ_of_le h) (Nat.le_succ_of_le h')

theorem parseNode_maxDepth {settings : ReadingSettings} {depth : Nat}
    (h : ts.length ≤ settings.maxDepth) (h' : ts.length ≤ depth) :
    parseNode { settings with maxDepth := depth } ts = parseNode settings ts := by
  rw [← parseNode_memoize settings false, ← parseNode_memoize { settings with maxDepth := depth } false]
  have hle : (withoutComments false (ts.filter Token.isSignificant)).length ≤ ts.length :=
    ((withoutComments_sublist false _).trans List.filter_sublist).length_le
  have hresembles : (phraseOf false settings.maxDepth (branchWithin false settings.maxDepth) false
      (ts.filter Token.isSignificant)).Resembles
      (phraseOf false depth (branchWithin false depth) false (ts.filter Token.isSignificant)) :=
    { fresh := rfl
      fresh' := rfl
      tokens := rfl
      room := .inr ⟨Nat.le_succ_of_le (hle.trans h), Nat.le_succ_of_le (hle.trans h')⟩
      branch := fun us hne hlt => by
        have hus : us.length ≤ ts.length := (Nat.le_of_lt hlt).trans hle
        exact branchWithin_room false hne (hus.trans h) (hus.trans h') }
  have hread := hresembles.read_eq rfl
    (hresembles.bareOrSentence (entryOf? (ts.filter Token.isSignificant)))
  simp only [parseNode, hread]
  rfl

/-- What is read depends on the tokens that count. -/
theorem sentenceWithin_toOption (memoize : Bool) (room : Nat)
    (h : withoutComments true (us.filter Token.isSignificant) =
      withoutComments true (ts.filter Token.isSignificant)) :
    (sentenceWithin memoize room us).toOption = (sentenceWithin memoize room ts).toOption := by
  rw [sentenceWithin_memoize, sentenceWithin_memoize memoize, sentenceWithin_eq, sentenceWithin_eq]
  have hresembles : (phraseOf false room (branchWithin false room) true
      (ts.filter Token.isSignificant)).Resembles
      (phraseOf false room (branchWithin false room) true (us.filter Token.isSignificant)) :=
    { fresh := rfl, fresh' := rfl, tokens := h, room := .inl rfl, branch := fun _ _ _ => rfl }
  exact hresembles.toOption_read

end Prose.Grammar
