import Prose.Proofs.Grammar.Derived
import Prose.Proofs.Memoization
import Prose.Proofs.Token.Runs

/- Every sentence that is read has a derivation. Conditions and headers are read from
   tokens that were looked up and not taken one by one; branches are sentences with
   less room, and the body of a header is a run of the tokens of its sentence. -/
namespace Prose.Grammar

open Rule

variable {α β : Type}

theorem ComparisonFrom.of_expr {room : Nat} {e : Expr} {ts : List Token} (h : ExprFrom room e ts)
    (he : e.isComparison = true) : ComparisonFrom room e ts := by
  cases h with
  | comparison h => exact h
  | arithmetic h =>
    cases h with
    | math => exact absurd he Bool.false_ne_true
    | operand h =>
      cases h with
      | literal h => cases h <;> exact absurd he Bool.false_ne_true
      | slot => exact absurd he Bool.false_ne_true
      | reference => exact absurd he Bool.false_ne_true

/-- Items paired with what they are made of. -/
theorem of_mem_zip_map {f : α → β} {l : List α} {b : β × α} (h : b ∈ (l.map f).zip l) :
    b.1 = f b.2 ∧ b.2 ∈ l := by
  induction l with
  | nil => exact absurd h List.not_mem_nil
  | cons a l ih =>
    rcases List.mem_cons.1 h with rfl | h
    · exact ⟨rfl, List.mem_cons_self⟩
    · exact ⟨(ih h).1, List.mem_cons_of_mem _ (ih h).2⟩

/-- A marker phrase of no tokens has no words. -/
theorem ne_nil_of_words {kinds : List Kind} {ts : List Token} {m : MarkerPhrase}
    (hm : markerPhrase kinds ts = .ok m) (hwords : m.words ≠ []) : ts ≠ [] := by
  rintro rfl
  rw [markerPhrase, splitMarker] at hm
  obtain rfl := Except.ok.inj hm
  exact hwords rfl

namespace Phrase

variable {p : Phrase} {i j first : Nat} {ts us : List Token}

/-- Whatever is read completely reaches the end. -/
theorem gives_complete {x : Rule α} {P : α → Nat → Prop} (hx : x.Gives i P) :
    (p.complete x).Gives i fun a j => P a j ∧ p.kindAt j = .stop := by
  refine Gives.attempt (hx.bind' fun a j ha => ?_)
  exact gives_at? (.ite' (fun h => .pure' ⟨ha, eq_of_beq h⟩) fun _ => .fail _)

theorem gives_firstComplete {xs : List (Rule α)} {P : α → Nat → Prop} (hxs : ∀ x ∈ xs, x.Gives i P) :
    (p.firstComplete xs).Gives i fun a j => P a j ∧ p.kindAt j = .stop := by
  induction xs with
  | nil => exact .firstOf_nil
  | cons x xs ih =>
    refine .firstOf_cons (gives_complete (hxs x List.mem_cons_self)) (ih fun y hy => ?_)
    exact hxs y (List.mem_cons_of_mem _ hy)

theorem find?_eq_some {kinds : List Kind} {k : Nat} (h : p.find? i kinds = some k) :
    i ≤ k ∧ k < p.size ∧ p.kindAt k ∈ kinds := by
  rw [find?, Option.map_eq_some_iff] at h
  obtain ⟨n, hn, rfl⟩ := h
  obtain ⟨hlt, hkind, -⟩ := List.findIdx?_eq_some_iff_getElem.1 hn
  rw [List.length_drop] at hlt
  refine ⟨Nat.le_add_left _ _, by simp only [size]; omega, ?_⟩
  rw [List.getElem_drop] at hkind
  have htoken : p.tokenAt (n + i) = p.tokens[i + n] := by
    rw [tokenAt, Nat.add_comm, List.getElem?_eq_getElem (by omega), Option.getD_some]
  rw [kindAt, htoken]
  exact List.contains_iff_mem.1 hkind

/-- A condition is read from all tokens up to where it ends. -/
theorem derives_condition (hp : p.memoize = false) {stop : Nat} (hlt : i < stop)
    (hle : stop ≤ p.size) :
    (p.condition stop).Gives i fun e _ => ConditionFrom p.room e (p.between i stop) := by
  refine .outcome_attempt (P := fun e _ => ConditionFrom p.room e (p.between i stop)) ?_ ?_ ?_
  · rw [wholeComparison_eq]
    refine ((derives_expression hp i).bind' ?_).attempt
    intro e j hread s a t hs h
    obtain ⟨ts, hts, he⟩ := hread
    simp only [comparisonTo, Prod.mk.injEq] at h
    obtain ⟨ha, -⟩ := h
    split at ha
    · next hcomparison =>
      obtain ⟨he', hstop⟩ := hcomparison
      obtain rfl := Option.some.inj ha
      rw [← hstop, hs, hts.between_eq]
      exact .comparison (.of_expr he he')
    · cases ha
  · exact fun e _ he => .pure' he
  · exact .position (.pure' (.loose (between_ne_nil hlt hle)))

/-- A branch is read from all tokens up to the end. -/
theorem derives_branchStatement :
    p.branchStatement.Gives i fun b j => j = p.size ∧ p.room ≠ 0 ∧
      ((∃ piece, Token.splitAt .semicolon (p.between i p.size) = [piece] ∧ b = (p.branch piece).1) ∨
        Token.splitAt .semicolon (p.between i p.size) ≠ [] ∧
          b = Stmt.block (((Token.splitAt .semicolon (p.between i p.size)).map p.branch).map Prod.fst)
            (.over (p.between i p.size))) := by
  refine .position (.ite' (fun _ => .fail _) fun hroom => ?_)
  refine .ite' (fun _ => .fail _) fun hparts => .moveTo ?_
  have hne : Token.splitAt .semicolon (p.between i p.size) ≠ [] :=
    fun h => hparts (List.isEmpty_iff.2 h)
  have hbetween : p.between i p.size ≠ [] := by
    intro h
    rw [h] at hne
    exact hne rfl
  have hle : i ≤ p.size := by
    apply Nat.le_of_not_lt
    intro hlt
    refine hbetween ?_
    rw [between, Nat.sub_eq_zero_of_le (Nat.le_of_lt hlt), List.take_zero]
  have hblock (body : List Stmt) :
      (do pure (Stmt.block body (← p.spanFrom i))).Gives p.size
        fun b j => j = p.size ∧ b = Stmt.block body (.over (p.between i p.size)) := by
    refine (gives_spanOver (took_between hle (Nat.le_refl _)) hbetween).bind' ?_
    intro span _ hread
    obtain ⟨rfl, rfl⟩ := hread
    exact .pure' ⟨rfl, rfl⟩
  split
  · next only hread =>
    refine .pure' ⟨rfl, hroom, .inl ?_⟩
    obtain ⟨piece, hpiece, honly⟩ := List.map_eq_singleton_iff.1 hread
    exact ⟨piece, hpiece, by rw [honly]⟩
  · refine (hblock _).mono ?_
    intro b j hread
    exact ⟨hread.1, hroom, .inr ⟨hne, hread.2⟩⟩

/-- What is needed of a phrase for its sentence to have a derivation: it keeps no results,
    all of its tokens are significant, and its branches have derivations with less room. -/
structure Sound (p : Phrase) : Prop where
  afresh : p.memoize = false
  significant : ∀ t ∈ p.tokens, t.isSignificant
  branch : ∀ room, p.room = room + 1 → ∀ ts, ts ≠ [] → (∀ t ∈ ts, t.isSignificant) →
    StmtFrom room (p.branch ts).1 ts

/-- `if <condition> then|, <statement>[; <statement>]...` -/
theorem Sound.derives_conditional (hp : p.Sound) : p.Reads p.conditional (StmtFrom p.room) := by
  intro i
  refine .position ((reads_eat (by decide) i).bind' ?_)
  intro opening first hread
  obtain ⟨_, hopening, hif, rfl⟩ := hread
  refine .position ?_
  split
  · exact .moveTo (.fail _)
  · next separator hfound =>
    refine .ite' (fun _ => .fail _) fun hne => ?_
    obtain ⟨hle, hlt, hseparator⟩ := find?_eq_some hfound
    have hfirst : first < separator := Nat.lt_of_le_of_ne hle fun h => hne h.symm
    refine (derives_condition hp.afresh hfirst (Nat.le_of_lt hlt)).bind' ?_
    intro test _ htest
    refine .moveTo (derives_branchStatement.bind' ?_)
    intro branch j hread
    obtain ⟨rfl, hroom, hbranch⟩ := hread
    obtain ⟨room, hroom⟩ := Nat.exists_eq_succ_of_ne_zero hroom
    have hall := hopening.append ((took_between hle (Nat.le_of_lt hlt)).append
      ((took_one hlt).append (took_between hlt (Nat.le_refl _))))
    -- a piece of the branch is a sentence with less room
    have hpiece {piece : List Token}
        (h : piece ∈ Token.splitAt .semicolon (p.between (separator + 1) p.size)) :
        StmtFrom room (p.branch piece).1 piece := by
      refine hp.branch room hroom piece (Token.ne_nil_of_mem_splitAt h) fun t ht => ?_
      have hbetween : (p.between (separator + 1) p.size).Sublist p.tokens :=
        (List.take_sublist _ _).trans (List.drop_sublist _ _)
      exact hp.significant t (hbetween.subset ((Token.sublist_of_mem_splitAt h).subset ht))
    refine (gives_spanOver hall (List.cons_ne_nil _ _)).bind' ?_
    intro span _ hread
    obtain ⟨rfl, rfl⟩ := hread
    refine .pure' ⟨_, hall, ?_⟩
    rw [hroom] at htest ⊢
    rcases hbranch with ⟨piece, honly, rfl⟩ | ⟨hparts, rfl⟩
    · exact .conditional hif htest hseparator honly (hpiece (honly ▸ List.mem_cons_self))
    · refine .block hif htest hseparator ?_ ?_ ?_
      · simpa using hparts
      · simp
      · intro b hb
        rw [List.map_map] at hb
        obtain ⟨hb, hmem⟩ := of_mem_zip_map hb
        rw [hb]
        exact hpiece hmem

/-! Headers and calls. -/

/-- Between indexes with tokens between them, the first one is less. -/
theorem lt_of_between_ne_nil (h : p.between i j ≠ []) : i < j ∧ i < p.size := by
  have hlength := List.length_pos_iff.2 h
  rw [between, List.length_take, List.length_drop] at hlength
  simp only [size]
  omega

/-- A header, behind its keyword. Its body are the tokens behind its separator. -/
theorem derives_header {keyword : List Token} {separator : Option Nat}
    (hkeyword : keyword.map Token.kind ∈ [[], [Kind.toWord], [Kind.defineWord]])
    (htook : p.Took first keyword i) (hseparator : ∀ k ∈ separator, i ≤ k ∧ k < p.size) :
    (p.header first i separator).Gives i fun s j =>
      ∃ ts, p.Took first ts j ∧ SentenceFrom p.room s ts := by
  unfold header
  simp only
  split
  · exact .moveTo (.fail _)
  · next m hm =>
    refine .ite' (fun _ => .moveTo (.fail _)) fun hwords => .moveTo (.pure' ?_)
    have hwords' : m.words ≠ [] := fun h => hwords (List.isEmpty_iff.2 h)
    have hphrase := ne_nil_of_words hm hwords'
    obtain ⟨hlt, hsize⟩ := lt_of_between_ne_nil hphrase
    have hstop : separator.getD p.size ≤ p.size := by
      cases separator with
      | none => exact Nat.le_refl _
      | some k => exact Nat.le_of_lt (hseparator k rfl).2
    have hheader := htook.append (took_between (Nat.le_of_lt hlt) hstop)
    have hlabel := LabelFrom.header hkeyword hm hwords'
    -- the label covers the keyword and the phrase
    have hspan : Span.ofTokens (keyword ++ p.between i (separator.getD p.size)) =
        ⟨(p.tokenAt first).start, (p.tokenAt (max (separator.getD p.size - 1) first)).stop⟩ := by
      have hfirst := htook.2
      rw [hheader.ofTokens_eq (List.append_ne_nil_of_right_ne_nil _ hphrase), Nat.max_eq_left (by omega)]
    rw [← hspan]
    cases separator with
    | none =>
      rw [show (none : Option Nat).getD p.size = p.size from rfl] at hheader hlabel ⊢
      have hsentence : SentenceFrom p.room _ (_ ++ []) := .header hlabel
      rw [List.append_nil] at hsentence
      exact ⟨_, hheader, hsentence⟩
    | some k =>
      rw [show (some k).getD p.size = k from rfl] at hheader hlabel ⊢
      obtain ⟨-, hk⟩ := hseparator k rfl
      have hall := hheader.append ((took_one hk).append (took_between hk (Nat.le_refl _)))
      refine ⟨_, hall, ?_⟩
      simp only [Option.map_some, Option.filter_some]
      split
      · next hbody => exact .body hlabel (by simpa using hbody)
      · exact .header hlabel

theorem derives_keywordHeader : p.Reads p.keywordHeader (SentenceFrom p.room) := by
  intro i
  refine .position ((reads_eatAny (by decide) i).bind' ?_)
  intro keyword j hread
  obtain ⟨_, hkeyword, hkind, rfl⟩ := hread
  have hkinds : [keyword].map Token.kind ∈ [[], [Kind.toWord], [Kind.defineWord]] := by
    simp only [List.mem_cons, List.not_mem_nil, or_false] at hkind
    rcases hkind with h | h <;> simp [h]
  have hfound {kinds : List Kind} : ∀ k ∈ p.find? j kinds, j ≤ k ∧ k < p.size :=
    fun k hk => ⟨(find?_eq_some hk).1, (find?_eq_some hk).2.1⟩
  refine .position (.ite' (fun _ => ?_) fun _ => ?_)
  · split
    · exact .fail _
    · next separator hseparator =>
      rw [← hseparator]
      exact derives_header hkinds hkeyword hfound
  · exact derives_header hkinds hkeyword hfound

theorem derives_bareHeader : p.Reads p.bareHeader (SentenceFrom p.room) := by
  intro i
  refine .position ?_
  split
  · exact .fail _
  · next separator hseparator =>
    refine derives_header List.mem_cons_self took_nil fun k hk => ?_
    obtain rfl := Option.some.inj hk
    exact ⟨(find?_eq_some hseparator).1, (find?_eq_some hseparator).2.1⟩

theorem derives_invocation : p.Reads p.invocation (SentenceFrom p.room) := by
  intro i
  refine .position ?_
  split
  · exact .moveTo (.fail _)
  · next m hm =>
    refine .ite' (fun _ => .fail _) fun hwords => .moveTo ?_
    have hwords' : m.words ≠ [] := fun h => hwords (List.isEmpty_iff.2 h)
    have hphrase := ne_nil_of_words hm hwords'
    have hall := took_between (Nat.le_of_lt (lt_of_between_ne_nil hphrase).1) (Nat.le_refl _)
    refine (gives_spanOver hall hphrase).bind' ?_
    intro span _ hread
    obtain ⟨rfl, rfl⟩ := hread
    exact .pure' ⟨_, hall, .stmt (.plain (.invocation hm hwords'))⟩

/-! Sentences. -/

/-- What reaches the end takes all tokens. -/
theorem Sound.eq_tokens (hp : p.Sound) (htook : p.Took 0 ts j) (hstop : p.kindAt j = .stop) :
    ts = p.tokens := by
  refine htook.eq_tokens hstop fun t ht h => ?_
  have hsignificant := hp.significant t ht
  simp [Token.isSignificant, h] at hsignificant

theorem gives_statementSentence {x : Rule Stmt}
    (hx : x.Gives i fun s j => (∃ ts, p.Took i ts j ∧ StmtFrom p.room s ts) ∧ p.kindAt j = .stop) :
    (statementSentence x).Gives i fun s j =>
      (∃ ts, p.Took i ts j ∧ SentenceFrom p.room s ts) ∧ p.kindAt j = .stop := by
  refine hx.bind' ?_
  intro s j hread
  obtain ⟨⟨ts, hts, hs⟩, hstop⟩ := hread
  exact .pure' ⟨⟨ts, hts, .stmt hs⟩, hstop⟩

theorem reads_plain {x : Rule Stmt} (hx : p.Reads x (PlainFrom p.room)) : p.Reads x (StmtFrom p.room) :=
  fun i => (hx i).mono fun _ _ ⟨ts, hts, h⟩ => ⟨ts, hts, .plain h⟩

theorem Sound.derives_sentenceOf (hp : p.Sound) (entry : Entry) (i : Nat) :
    (p.sentenceOf entry).Gives i fun s j =>
      (∃ ts, p.Took i ts j ∧ SentenceFrom p.room s ts) ∧ p.kindAt j = .stop := by
  have hfresh := hp.afresh
  cases entry with
  | reference =>
    refine gives_statementSentence (gives_firstComplete ?_)
    simp only [List.forall_mem_cons]
    exact ⟨reads_plain derives_pointerDeclaration i, reads_plain derives_shapeDeclaration i,
      reads_plain derives_shapeOfSlots i, nofun⟩
  | declaration =>
    refine gives_statementSentence (gives_firstComplete ?_)
    simp only [List.forall_mem_cons]
    exact ⟨reads_plain (derives_variableStatement hfresh) i, reads_plain derives_unitAlias i,
      reads_plain derives_constantDeclaration i, nofun⟩
  | expression =>
    have hactions : ∀ x ∈ [p.arithmeticPhrase true, p.assignment],
        x.Gives i fun e j => ∃ ts, p.Took i ts j ∧ ActionFrom p.room true e ts := by
      simp only [List.forall_mem_cons]
      exact ⟨derives_arithmeticPhrase hfresh true i, derives_assignment hfresh true i, nofun⟩
    refine gives_statementSentence ((gives_firstComplete hactions).bind' ?_)
    intro e j hread
    obtain ⟨⟨ts, hts, he⟩, hstop⟩ := hread
    exact .pure' ⟨⟨ts, hts, .plain (.action he)⟩, hstop⟩
  | conditional => exact gives_statementSentence (gives_complete (hp.derives_conditional i))
  | labeled => exact gives_complete (derives_keywordHeader i)
  | result =>
    exact gives_statementSentence (gives_complete (reads_plain (derives_resultStatement hfresh) i))
  | invocation =>
    refine gives_firstComplete ?_
    simp only [List.forall_mem_cons]
    exact ⟨derives_bareHeader i, derives_invocation i, nofun⟩

/-- A sentence is read from all tokens of its phrase. -/
theorem Sound.derives_sentence (hp : p.Sound) :
    p.sentence.Gives 0 fun s _ => SentenceFrom p.room s p.tokens := by
  unfold sentence
  split
  · exact .fail _
  · next entry _ =>
    refine (hp.derives_sentenceOf entry 0).mono ?_
    intro s j hread
    obtain ⟨⟨ts, hts, hs⟩, hstop⟩ := hread
    rwa [hp.eq_tokens hts hstop] at hs

end Phrase

/-! Runs of tokens. -/

/-- What is read for a phrase is what the rule gives from the start. -/
theorem Phrase.read_eq_ok {p : Phrase} {x : Rule α} {a : α} {P : α → Prop}
    (hx : x.Gives 0 fun a _ => P a) (h : p.read x = .ok a) : P a := by
  rcases hrun : x {} with ⟨_ | b, t⟩ <;> simp only [Phrase.read, hrun] at h
  · cases h
  · obtain rfl := Except.ok.inj h
    exact hx {} b t rfl hrun

/-- Comments are all that goes missing. -/
theorem withoutComments_sublist (unannounced : Bool) (ts : List Token) :
    (withoutComments unannounced ts).Sublist ts := by
  unfold withoutComments
  split
  · exact List.Sublist.refl _
  · exact List.filter_sublist

/-- The body of a header is a part of its sentence, and not none of it. -/
theorem body_sublist {room : Nat} {label : Label} {body ts : List Token}
    (h : SentenceFrom room (.header label (some body)) (withoutComments true ts)) :
    body ≠ [] ∧ body.Sublist ts := by
  suffices hpart : body ≠ [] ∧ body.Sublist (withoutComments true ts) from
    ⟨hpart.1, hpart.2.trans (withoutComments_sublist true ts)⟩
  generalize withoutComments true ts = us at h
  cases h with
  | body _ hbody =>
    exact ⟨hbody, (List.sublist_cons_self ..).trans (List.sublist_append_right ..)⟩

/-- A branch has a derivation if sentences have, the body of a header and its body in turn. -/
theorem derives_branchOf {room : Nat} {parse : List Token → Except ParseFailure Sentence}
    (hparse : ∀ ts s, (∀ t ∈ ts, t.isSignificant) → parse ts = .ok s →
      SentenceFrom room s (withoutComments true ts))
    {ts : List Token} (hne : ts ≠ []) (hts : ∀ t ∈ ts, t.isSignificant) :
    StmtFrom room (branchOf parse ts).1 ts := by
  -- on the length of the run, which the body of a header is shorter than
  fun_induction branchOf parse ts with
  | case1 ts _ _ => exact .unread hne hts
  | case2 ts s hs =>
    cases hparse ts _ hts hs with
    | stmt h => exact .uncommented h
  | case3 ts label hl =>
    have hsentence := hparse ts _ hts hl
    refine .uncommented ?_
    generalize withoutComments true ts = us at hsentence
    cases hsentence with
    | header hlabel => exact .noBody hlabel
  | case4 ts label body hl hlt inner ih =>
    have hsentence := hparse ts _ hts hl
    obtain ⟨hbody, hsub⟩ := body_sublist hsentence
    have hbranch := ih hbody fun t ht => hts t (hsub.subset ht)
    refine .uncommented ?_
    generalize withoutComments true ts = us at hsentence
    cases hsentence with
    | body hlabel => exact .labeled hlabel hbranch
  | case5 ts label body _ _ => exact .unread hne hts

theorem sound_phraseOf {room : Nat} {unannounced : Bool} {branch : List Token → Stmt × Bool}
    {ts : List Token} (hts : ∀ t ∈ ts, t.isSignificant)
    (hbranch : ∀ room', room = room' + 1 → ∀ us, us ≠ [] → (∀ t ∈ us, t.isSignificant) →
      StmtFrom room' (branch us).1 us) :
    (phraseOf false room branch unannounced ts).Sound where
  afresh := rfl
  significant := fun t ht => hts t ((withoutComments_sublist unannounced ts).subset ht)
  branch := hbranch

theorem significant_of_mem_filter (ts : List Token) :
    ∀ t ∈ ts.filter Token.isSignificant, t.isSignificant :=
  fun _ ht => (List.mem_filter.1 ht).2

/-- Every sentence that is read has a derivation, with as much room as it was read with. -/
theorem derives_sentenceWithin {memoize : Bool} {room : Nat} {ts : List Token} {s : Sentence}
    (h : sentenceWithin memoize room ts = .ok s) :
    SentenceFrom room s (withoutComments true (ts.filter Token.isSignificant)) := by
  rw [sentenceWithin_memoize] at h
  induction room generalizing ts s with
  | zero =>
    have hp : (phraseOf false 0 (fun ts => (Stmt.ofUnread ts, false)) true
        (ts.filter Token.isSignificant)).Sound :=
      sound_phraseOf (significant_of_mem_filter ts) fun _ h => absurd h (by omega)
    exact Phrase.read_eq_ok (P := fun s => SentenceFrom 0 s _) hp.derives_sentence h
  | succ room ih =>
    have hparse (us : List Token) (s : Sentence) (hus : ∀ t ∈ us, t.isSignificant)
        (hread : sentenceWithin false room us = .ok s) :
        SentenceFrom room s (withoutComments true us) := by
      have hs := ih hread
      rwa [List.filter_eq_self.2 hus] at hs
    have hp : (phraseOf false (room + 1) (fun us => branchOf (sentenceWithin false room) us) true
        (ts.filter Token.isSignificant)).Sound := by
      refine sound_phraseOf (significant_of_mem_filter ts) fun room' h us hne hus => ?_
      obtain rfl : room = room' := by omega
      exact derives_branchOf hparse hne hus
    exact Phrase.read_eq_ok (P := fun s => SentenceFrom (room + 1) s _) hp.derives_sentence h

/-- Every sentence that is read of significant tokens has a derivation. -/
theorem derives_parseSentence {settings : ReadingSettings} {ts : List Token} {s : Sentence}
    (hts : ∀ t ∈ ts, t.isSignificant) (h : parseSentence settings ts = .ok s) :
    SentenceFrom settings.maxDepth s (withoutComments true ts) := by
  have hs := derives_sentenceWithin h
  rwa [List.filter_eq_self.2 hts] at hs

/-! Bare nodes. -/

namespace Phrase

variable {p : Phrase} {i : Nat}

theorem gives_expressionNode {x : Rule Expr} {Q : Expr → List Token → Prop} (hx : p.Reads x Q)
    (hQ : ∀ e ts, Q e ts → BareFrom p.room (.expr e) ts) :
    p.Reads (expressionNode x) (BareFrom p.room) := by
  intro i
  refine (hx i).bind' ?_
  intro e j hread
  obtain ⟨ts, hts, he⟩ := hread
  exact .pure' ⟨ts, hts, hQ e ts he⟩

theorem derives_bare (hp : p.memoize = false) (entry : Option Entry) (i : Nat) :
    (p.bare entry).Gives i fun n j =>
      (∃ ts, p.Took i ts j ∧ BareFrom p.room n ts) ∧ p.kindAt j = .stop := by
  have hexpression : p.Reads (expressionNode p.expression) (BareFrom p.room) :=
    gives_expressionNode (derives_expression hp) fun _ _ h => .expression h
  have hrefused {Q : Node → Nat → Prop} : Gives (fun s => (none, s)) i Q :=
    fun _ _ _ _ hs => absurd (Prod.mk.inj hs).1 nofun
  cases entry with
  | none =>
    refine gives_firstComplete ?_
    simp only [List.forall_mem_cons]
    exact ⟨hexpression i, nofun⟩
  | some entry =>
    cases entry with
    | reference =>
      have hreference : p.referenceNode.Gives i fun n j =>
          ∃ ts, p.Took i ts j ∧ BareFrom p.room n ts := by
        refine (derives_plainReference i).bind' ?_
        intro r j hread
        obtain ⟨ts, hts, hr⟩ := hread
        exact .pure' ⟨ts, hts, .reference hr⟩
      refine gives_firstComplete ?_
      simp only [List.forall_mem_cons]
      exact ⟨hreference, hexpression i, nofun⟩
    | declaration =>
      have hdeclaration : p.declarationNode.Gives i fun n j =>
          ∃ ts, p.Took i ts j ∧ BareFrom p.room n ts := by
        refine (derives_variableDeclaration hp i).bind' ?_
        intro d j hread
        obtain ⟨ts, hts, hd⟩ := hread
        exact .pure' ⟨ts, hts, .declaration hd⟩
      refine gives_firstComplete ?_
      simp only [List.forall_mem_cons]
      exact ⟨hdeclaration, nofun⟩
    | expression =>
      refine gives_firstComplete ?_
      simp only [List.forall_mem_cons]
      exact ⟨gives_expressionNode (derives_arithmeticPhrase hp false) (fun _ _ h => .action h) i,
        gives_expressionNode (derives_assignment hp false) (fun _ _ h => .action h) i, nofun⟩
    | conditional => exact hrefused
    | labeled => exact hrefused
    | result => exact hrefused
    | invocation => exact hrefused

/-- A bare node or a sentence is read from all tokens of its phrase. -/
theorem Sound.derives_bareOrSentence (hp : p.Sound) (entry : Option Entry) :
    (p.bareOrSentence entry).Gives 0 fun n _ =>
      (∀ b, n = .inl b → BareFrom p.room b p.tokens) ∧
        ∀ s, n = .inr s → SentenceFrom p.room s p.tokens := by
  refine .firstOf_cons ?_ (.firstOf_cons ?_ .firstOf_nil)
  · refine (derives_bare hp.afresh entry 0).bind' ?_
    intro b j hread
    obtain ⟨⟨ts, hts, hb⟩, hstop⟩ := hread
    rw [hp.eq_tokens hts hstop] at hb
    exact .pure' ⟨fun _ h => Sum.inl.inj h ▸ hb, nofun⟩
  · refine hp.derives_sentence.bind' ?_
    intro s j hs
    exact .pure' ⟨nofun, fun _ h => Sum.inr.inj h ▸ hs⟩

end Phrase

/-- What is read as a node is a bare node or a statement that has a derivation. -/
theorem derives_parseNode {settings : ReadingSettings} {ts : List Token} {n : Node}
    (h : parseNode settings ts = .ok n) :
    BareFrom settings.maxDepth n (withoutComments false (ts.filter Token.isSignificant)) ∨
      ∃ s, n = .stmt s ∧
        StmtFrom settings.maxDepth s (withoutComments false (ts.filter Token.isSignificant)) := by
  have hmemoize : parseNode { settings with memoize := false } ts = .ok n := by
    rw [parseNode_memoize, h]
  have hp : (phraseOf false settings.maxDepth (branchWithin false settings.maxDepth) false
      (ts.filter Token.isSignificant)).Sound := by
    refine sound_phraseOf (significant_of_mem_filter ts) fun room hroom us hne hus => ?_
    rw [hroom]
    refine derives_branchOf (fun us s hus hread => ?_) hne hus
    have hs := derives_sentenceWithin hread
    rwa [List.filter_eq_self.2 hus] at hs
  simp only [parseNode] at hmemoize
  split at hmemoize
  · cases hmemoize
  · next b hread =>
    obtain rfl := Except.ok.inj hmemoize
    exact .inl ((Phrase.read_eq_ok (hp.derives_bareOrSentence _) hread).1 b rfl)
  · next s hread =>
    obtain rfl := Except.ok.inj hmemoize
    cases (Phrase.read_eq_ok (hp.derives_bareOrSentence _) hread).2 _ rfl with
    | stmt hs => exact .inr ⟨s, rfl, hs⟩
  · cases hmemoize

end Prose.Grammar
