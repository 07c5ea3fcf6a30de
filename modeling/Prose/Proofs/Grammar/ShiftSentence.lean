import Prose.Proofs.Grammar.Markers
import Prose.Proofs.Grammar.Shift

/- Sentences at another place. Marker phrases, conditions, branches and headers are read
   of the same tokens some bytes further on as what they are there, and so are whole
   sentences, their branches and the bodies of headers in them. -/
namespace Prose.Grammar

open Rule

variable {α : Type} {n : Nat}

/-! Marker phrases. -/

/-- The parameters and the result `n` bytes further on. -/
def MarkerPhrase.shift (n : Nat) (m : MarkerPhrase) : MarkerPhrase :=
  ⟨m.words, m.parameters.map (Reference.shift n), m.result.map (Reference.shift n)⟩

/-- A name and what follows it, `n` bytes further on. -/
def shiftRead (n : Nat) : Reference × List Token → Reference × List Token :=
  Prod.map (Reference.shift n) (List.map (Token.shift n))

theorem nameAfter_shift (article : Token) (rest : List Token) :
    nameAfter (article.shift n) (rest.map (Token.shift n)) =
      (nameAfter article rest).map (shiftRead n) := by
  have hwords : (rest.map (Token.shift n)).takeWhile (fun t => t.kind == .identifier) =
      (rest.takeWhile fun t => t.kind == .identifier).map (Token.shift n) := List.takeWhile_map ..
  have hrest : (rest.map (Token.shift n)).dropWhile (fun t => t.kind == .identifier) =
      (rest.dropWhile fun t => t.kind == .identifier).map (Token.shift n) := List.dropWhile_map ..
  simp only [nameAfter, hwords, hrest, List.getLast?_map, Token.joinTexts_shift]
  cases (rest.takeWhile fun t => t.kind == .identifier).getLast? <;> rfl

theorem parameterAt_shift (ts : List Token) :
    parameterAt (ts.map (Token.shift n)) = (parameterAt ts).map (shiftRead n) := by
  cases ts with
  | nil => rfl
  | cons t rest =>
    simp only [List.map_cons, parameterAt, nameAfter_shift]
    have hkind : (t.shift n).kind = t.kind := rfl
    rw [hkind]
    split <;> rfl

theorem finalResult_shift (ts : List Token) :
    finalResult (ts.map (Token.shift n)) = (finalResult ts).map (shiftRead n) := by
  have hresult : resultAt (ts.map (Token.shift n)) = (resultAt ts).map (shiftRead n) := by
    cases ts with
    | nil => rfl
    | cons t rest =>
      simp only [List.map_cons, resultAt, nameAfter_shift]
      have hkind : (t.shift n).kind = t.kind := rfl
      rw [hkind]
      split <;> rfl
  rw [finalResult, finalResult, hresult]
  rcases resultAt ts with _ | ⟨r, rest⟩
  · rfl
  · have hall : ((rest.map (Token.shift n)).all fun t => t.kind == .comment) =
        rest.all fun t => t.kind == .comment := by
      rw [List.all_map]
      rfl
    simp only [Option.map_some, shiftRead, Prod.map, Option.filter_some, hall]
    split <;> rfl

theorem splitMarker_shift (kinds : List Kind) (i : Nat) (afterParameter : Bool) (ts : List Token) :
    splitMarker kinds i afterParameter (ts.map (Token.shift n)) =
      (splitMarker kinds i afterParameter ts).map (MarkerPhrase.shift n) := by
  -- on the number of tokens, as the phrase is split
  induction hlength : ts.length using Nat.strongRecOn generalizing i afterParameter ts with
  | ind length ih =>
    cases ts with
    | nil =>
      simp only [List.map_nil, splitMarker]
      rfl
    | cons t rest =>
      have hparameter := parameterAt_shift (n := n) (t :: rest)
      rcases h : parameterAt (t :: rest) with _ | ⟨r, next⟩ <;> rw [h] at hparameter
      · have hrest (b : Bool) := ih rest.length (by simp at hlength; omega) (i + 1) b rest rfl
        have hkind : (t.shift n).kind = t.kind := rfl
        have htext : (t.shift n).text = t.text := rfl
        rw [List.map_cons, splitMarker_word hparameter, splitMarker_word h, parameterAt_shift,
          finalResult_shift, hrest, hrest, Option.isSome_map, hkind, htext]
        split
        · rfl
        · cases hkinds : kinds.contains t.kind
          · simp only [Bool.false_eq_true, if_false]
            split
            · cases splitMarker kinds (i + 1) false rest <;> rfl
            · rfl
          · simp only [if_true]
            rcases finalResult rest with _ | ⟨r, trailing⟩
            · simp only [Option.map_none]
              split
              · cases splitMarker kinds (i + 1) false rest <;> rfl
              · rfl
            · simp only [Option.map_some, shiftRead, Prod.map, List.map_map]
              rfl
      · have hlt := length_parameterAt_lt h
        rw [List.length_cons] at hlength
        rw [List.map_cons, splitMarker_parameter hparameter, splitMarker_parameter h,
          List.length_map, List.length_map, ih next.length (by omega) _ _ next rfl]
        cases splitMarker kinds (i + (rest.length + 1 - next.length)) true next <;> rfl

theorem markerPhrase_shift (kinds : List Kind) (ts : List Token) :
    markerPhrase kinds (ts.map (Token.shift n)) = (markerPhrase kinds ts).map (MarkerPhrase.shift n) :=
  splitMarker_shift kinds 0 false ts

/-- A condition that is no comparison, if it has tokens. -/
theorem looseCondition_shift {ts : List Token} (hne : ts ≠ []) :
    looseCondition (ts.map (Token.shift n)) = (looseCondition ts).shift n := by
  simp only [looseCondition, markerPhrase_shift, Token.joinTexts_shift, Span.ofTokens_shift hne]
  rcases markerPhrase [] ts with i | m
  · rfl
  · simp only [Except.map, MarkerPhrase.shift, MarkerPhrase.marker, Expr.shift, Expr.shiftAll_eq_map,
      List.map_map]
    rfl

theorem isComparison_shift (e : Expr) : (e.shift n).isComparison = e.isComparison := by
  cases e <;> rfl

/-- The sentence and the body in it `n` bytes further on. -/
def Sentence.shift (n : Nat) : Sentence → Sentence
  | .stmt s => .stmt (s.shift n)
  | .header label body => .header (label.shift n) (body.map (List.map (Token.shift n)))

/-- A rule that is attempted goes back where it fails, so that what follows starts where
    it started. -/
theorem Rule.Carries.outcome_attempt {β γ δ : Type} {f : α → β} {g : γ → δ} {i : Nat} {u : Rule γ}
    {v : Rule δ} {k : Option γ → Rule α} {l : Option δ → Rule β} (hu : Carries g u v)
    (hsome : ∀ a, Carries f (k (some a)) (l (some (g a)))) (hnone : CarriesAt i f (k none) (l none)) :
    CarriesAt i f (Rule.outcome (Rule.attempt u) >>= k) (Rule.outcome (Rule.attempt v) >>= l) := by
  intro s hs
  have hv := hu.attempt s
  rw [bind_some (outcome_eq (x := Rule.attempt u)), bind_some (outcome_eq (x := Rule.attempt v)), hv]
  rcases hus : Rule.attempt u s with ⟨_ | a, t⟩
  · exact hnone t ((attempt_pos hus).trans hs)
  · exact hsome a t

namespace Phrase.Moved

variable {p q : Phrase} (h : p.Moved n q)

include h

/-! Conditions and branches. -/

theorem resultStatement : Carries (Stmt.shift n) p.resultStatement q.resultStatement := by
  have tail (start : Nat) : Carries (Stmt.shift n)
      (do let value ← p.expression; pure (Stmt.result value (← p.spanFrom start)))
      (do let value ← q.expression; pure (Stmt.result value (← q.spanFrom start))) :=
    .bind' h.expression fun value => .bind' (h.spanFrom start) fun _ => .pure' _
  refine .position fun start => h.at? _ fun _ => .ite' (fun _ => ?_) fun _ => ?_
  · exact .bind' h.advance fun _ => .bind' (h.eat _) fun _ => tail start
  · exact .bind' (h.eat _) fun _ => tail start

theorem wholeComparison (stop : Nat) :
    Carries (Expr.shift n) (p.wholeComparison stop) (q.wholeComparison stop) := by
  rw [Phrase.wholeComparison_eq, Phrase.wholeComparison_eq]
  refine .bind' h.expression fun e s => ?_
  simp only [comparisonTo, isComparison_shift]
  split <;> rfl

/-- A condition has tokens, up to where it ends. -/
theorem condition {i stop : Nat} (hlt : i < stop) (hle : stop ≤ p.size) :
    CarriesAt i (Expr.shift n) (p.condition stop) (q.condition stop) := by
  refine Carries.outcome_attempt (h.wholeComparison stop) (fun e => .pure' e) fun s hs => ?_
  subst hs
  have hloose := looseCondition_shift (n := n) (between_ne_nil hlt hle)
  rw [← h.between] at hloose
  exact Carries.pure_eq hloose s

theorem branchStatement : Carries (Stmt.shift n) p.branchStatement q.branchStatement := by
  refine .position fun start => ?_
  have hparts (parts : List (List Token))
      (hsub : ∀ part ∈ parts, part ≠ [] ∧ ∀ t ∈ part, t.isSignificant) :
      (parts.map (List.map (Token.shift n))).map q.branch =
        (parts.map p.branch).map (Prod.map (Stmt.shift n) id) := by
    rw [List.map_map, List.map_map]
    refine List.map_congr_left fun part hpart => ?_
    exact h.branch part (hsub part hpart).1 (hsub part hpart).2
  simp only [h.room, h.size, h.between, Token.splitAt_shift, List.isEmpty_map]
  rw [hparts]
  · refine .ite' (fun _ => .fail _) fun _ => .ite' (fun _ => .fail _) fun _ => .moveTo _ ?_
    have hblock (body : List (Stmt × Bool)) : Carries (Stmt.shift n)
        (do pure (Stmt.block (body.map Prod.fst) (← p.spanFrom start)))
        (do pure (Stmt.block ((body.map (Prod.map (Stmt.shift n) id)).map Prod.fst)
          (← q.spanFrom start))) := by
      refine .bind' (h.spanFrom start) fun span => .pure_eq ?_
      simp [Stmt.shift, Stmt.shiftAll_eq_map]
    generalize (Token.splitAt .semicolon (p.between start p.size)).map p.branch = read
    -- one branch that could be read needs no block
    rcases read with _ | ⟨⟨only, complete⟩, _ | ⟨next, more⟩⟩
    · exact hblock []
    · cases complete
      · exact hblock [(only, false)]
      · exact .pure' only
    · cases complete
      · exact hblock ((only, false) :: next :: more)
      · exact hblock ((only, true) :: next :: more)
  · intro part hpart
    refine ⟨Token.ne_nil_of_mem_splitAt hpart, fun t ht => h.significant t ?_⟩
    have hbetween : (p.between start p.size).Sublist p.tokens :=
      (List.take_sublist _ _).trans (List.drop_sublist _ _)
    exact hbetween.subset ((Token.sublist_of_mem_splitAt hpart).subset ht)

theorem conditional : Carries (Stmt.shift n) p.conditional q.conditional := by
  refine .position fun start => .bind' (h.eat _) fun _ => .positionAt fun first => ?_
  rw [h.find?]
  split
  · intro s _
    rw [h.size]
    exact Carries.moveTo p.size (.fail _) s
  · next separator hfound =>
    obtain ⟨hle, hlt, -⟩ := find?_eq_some hfound
    split
    · exact fun s _ => Carries.fail _ s
    · next hne =>
      have hfirst : first < separator := Nat.lt_of_le_of_ne hle fun h => hne h.symm
      refine Carries.bindAt (h.condition hfirst (Nat.le_of_lt hlt)) fun test => .moveTo _ ?_
      exact .bind' h.branchStatement fun branch => .bind' (h.spanFrom start) fun _ => .pure' _

/-! Headers and calls. -/

theorem header (start first : Nat) (separator : Option Nat) :
    Carries (Sentence.shift n) (p.header start first separator) (q.header start first separator) := by
  simp only [Phrase.header, h.size, h.between, markerPhrase_shift, h.tokenAt]
  cases markerPhrase [.intoWord] (p.between first (separator.getD p.size)) with
  | error i => exact .moveTo _ (.fail _)
  | ok m =>
    refine .ite' (fun _ => .moveTo _ (.fail _)) fun _ => .moveTo _ (.pure_eq ?_)
    simp only [Sentence.shift, Label.shift, MarkerPhrase.shift, MarkerPhrase.marker]
    cases separator with
    | none => rfl
    | some k =>
      simp only [Option.map_some, Option.filter_some, List.isEmpty_map]
      split <;> rfl

theorem keywordHeader : Carries (Sentence.shift n) p.keywordHeader q.keywordHeader := by
  refine .position fun start => .bind' (h.eatAny _ _) fun keyword => .position fun first => ?_
  simp only [h.find?]
  refine .ite' (fun _ => ?_) fun _ => h.header _ _ _
  split
  · exact .fail _
  · exact h.header _ _ _

theorem bareHeader : Carries (Sentence.shift n) p.bareHeader q.bareHeader := by
  refine .position fun start => ?_
  rw [h.find?]
  split
  · exact .fail _
  · exact h.header _ _ _

theorem invocation : Carries (Sentence.shift n) p.invocation q.invocation := by
  refine .position fun start => ?_
  simp only [h.size, h.between, markerPhrase_shift]
  cases markerPhrase [.intoWord, .inWord] (p.between start p.size) with
  | error i => exact .moveTo _ (.fail _)
  | ok m =>
    exact .ite' (fun _ => .fail _) fun _ => .moveTo _ (.bind' (h.spanFrom start) fun _ => .pure' _)

/-! Whole sentences. -/

omit h in
theorem statementSentence {x y : Rule Stmt} (hx : Carries (Stmt.shift n) x y) :
    Carries (Sentence.shift n) (Grammar.statementSentence x) (Grammar.statementSentence y) :=
  .bind' hx fun _ => .pure' _

omit h in
theorem expressionStatement {x y : Rule Expr} (hx : Carries (Expr.shift n) x y) :
    Carries (Stmt.shift n) (Grammar.expressionStatement x) (Grammar.expressionStatement y) := by
  refine .bind' hx fun e => .pure_eq ?_
  rw [Expr.span_shift]
  rfl

theorem sentenceOf (entry : Entry) :
    Carries (Sentence.shift n) (p.sentenceOf entry) (q.sentenceOf entry) := by
  cases entry with
  | reference =>
    exact statementSentence (h.firstComplete_cons h.pointerDeclaration
      (h.firstComplete_cons h.shapeDeclaration (h.firstComplete_cons h.shapeOfSlots .firstOf_nil)))
  | declaration =>
    exact statementSentence (h.firstComplete_cons h.variableStatement
      (h.firstComplete_cons h.unitAlias (h.firstComplete_cons h.constantDeclaration .firstOf_nil)))
  | expression =>
    exact statementSentence (expressionStatement (h.firstComplete_cons (h.arithmeticPhrase true)
      (h.firstComplete_cons h.assignment .firstOf_nil)))
  | conditional => exact statementSentence (h.complete h.conditional)
  | labeled => exact h.complete h.keywordHeader
  | result => exact statementSentence (h.complete h.resultStatement)
  | invocation => exact h.firstComplete_cons h.bareHeader (h.firstComplete_cons h.invocation .firstOf_nil)

theorem sentence : Carries (Sentence.shift n) p.sentence q.sentence := by
  rw [Phrase.sentence, Phrase.sentence, h.kindAt]
  split
  · exact .fail _
  · exact h.sentenceOf _

end Phrase.Moved

/-! Runs of tokens. -/

theorem withoutComments_shift (unannounced : Bool) (ts : List Token) :
    withoutComments unannounced (ts.map (Token.shift n)) =
      (withoutComments unannounced ts).map (Token.shift n) := by
  have hentry : entryOf? (ts.map (Token.shift n)) = entryOf? ts := by
    rw [entryOf?, entryOf?, List.head?_map]
    cases ts.head? <;> rfl
  rw [withoutComments, withoutComments, hentry, List.filter_map]
  split <;> rfl

theorem stopOffset_shift {ts : List Token} (hne : ts ≠ []) :
    stopOffset (ts.map (Token.shift n)) = stopOffset ts + n := by
  rw [stopOffset, stopOffset, List.getLast?_map, List.getLast?_eq_some_getLast hne]
  rfl

/-- What is read of a phrase is read of it further on. -/
theorem Phrase.read_shift {β : Type} {p q : Phrase} {f : α → β} {x : Rule α} {y : Rule β}
    (h : Carries f x y) : (q.read y).toOption = (p.read x).toOption.map f := by
  simp only [Phrase.read, h {}]
  rcases x {} with ⟨_ | a, t⟩ <;> rfl

/-- A parser gives further on what it gives here: the same sentence `n` bytes further on,
    or none. -/
def ShiftsAt (n : Nat) (parse : List Token → Except ParseFailure Sentence) (ts : List Token) : Prop :=
  (parse (ts.map (Token.shift n))).toOption = (parse ts).toOption.map (Sentence.shift n)

section Parsers

variable {parse : List Token → Except ParseFailure Sentence} {ts : List Token}

theorem ShiftsAt.ok (h : ShiftsAt n parse ts) {s : Sentence} (hs : parse ts = .ok s) :
    parse (ts.map (Token.shift n)) = .ok (s.shift n) := by
  rw [ShiftsAt, hs] at h
  rcases hmap : parse (ts.map (Token.shift n)) with e | s' <;> rw [hmap] at h
  · cases h
  · rw [Option.some.inj h]

theorem ShiftsAt.error (h : ShiftsAt n parse ts) {e : ParseFailure} (he : parse ts = .error e) :
    ∃ e', parse (ts.map (Token.shift n)) = .error e' := by
  rw [ShiftsAt, he] at h
  rcases hmap : parse (ts.map (Token.shift n)) with e' | s' <;> rw [hmap] at h
  · exact ⟨e', rfl⟩
  · cases h

/-- The branches of a sentence are read further on as here if sentences are. -/
theorem branchOf_shift {room : Nat}
    (hderives : ∀ ts s, (∀ t ∈ ts, t.isSignificant) → parse ts = .ok s →
      SentenceFrom room s (withoutComments true ts))
    (hparse : ∀ ts, ts ≠ [] → (∀ t ∈ ts, t.isSignificant) → ShiftsAt n parse ts)
    (hne : ts ≠ []) (hts : ∀ t ∈ ts, t.isSignificant) :
    branchOf parse (ts.map (Token.shift n)) = ((branchOf parse ts).1.shift n, (branchOf parse ts).2) := by
  -- on the length of the run, which the body of a header is shorter than
  fun_induction branchOf parse ts with
  | case1 ts e he =>
    obtain ⟨e', he'⟩ := (hparse ts hne hts).error he
    rw [branchOf, he', Stmt.shift_ofUnread hne hts]
  | case2 ts s hs =>
    rw [branchOf, (hparse ts hne hts).ok hs]
    rfl
  | case3 ts label hl =>
    rw [branchOf, (hparse ts hne hts).ok hl, Stmt.shift_underHeader, Stmt.shift_noBody]
    rfl
  | case4 ts label body hl hlt inner ih =>
    obtain ⟨hbody, hsub⟩ := body_sublist (hderives ts _ hts hl)
    have hinner := ih hbody fun t ht => hts t (hsub.subset ht)
    have hshorter : (body.map (Token.shift n)).length < (ts.map (Token.shift n)).length := by
      simpa using hlt
    rw [branchOf, (hparse ts hne hts).ok hl, Stmt.shift_underHeader]
    simp only [Sentence.shift, Option.map_some, hshorter, if_true, hinner]
    rfl
  | case5 ts label body hl hlt =>
    have hlonger : ¬(body.map (Token.shift n)).length < (ts.map (Token.shift n)).length := by
      simpa using hlt
    rw [branchOf, (hparse ts hne hts).ok hl, Stmt.shift_ofUnread hne hts]
    simp only [Sentence.shift, Option.map_some, hlonger, if_false]

end Parsers

theorem moved_phraseOf {room : Nat} {unannounced : Bool} {branch : List Token → Stmt × Bool}
    {ts : List Token} (hne : ts ≠ []) (hts : ∀ t ∈ ts, t.isSignificant)
    (hbranch : ∀ us, us ≠ [] → (∀ t ∈ us, t.isSignificant) →
      branch (us.map (Token.shift n)) = ((branch us).1.shift n, (branch us).2)) :
    (phraseOf false room branch unannounced ts).Moved n
      (phraseOf false room branch unannounced (ts.map (Token.shift n))) where
  fresh := rfl
  fresh' := rfl
  tokens := withoutComments_shift unannounced ts
  stopAt := stopOffset_shift hne
  room := rfl
  significant t ht := hts t ((withoutComments_sublist unannounced ts).subset ht)
  branch := hbranch

theorem sentenceWithin_shift (memoize : Bool) (room : Nat) {ts : List Token} (hne : ts ≠ [])
    (hts : ∀ t ∈ ts, t.isSignificant) : ShiftsAt n (sentenceWithin memoize room) ts := by
  rw [show sentenceWithin memoize room = sentenceWithin false room from
    funext (sentenceWithin_memoize memoize room)]
  -- on the room; the branches of a sentence have less of it
  induction room generalizing ts with
  | zero =>
    have hp : (phraseOf false 0 (fun ts => (Stmt.ofUnread ts, false)) true ts).Moved n
        (phraseOf false 0 (fun ts => (Stmt.ofUnread ts, false)) true (ts.map (Token.shift n))) :=
      moved_phraseOf hne hts fun us hus hsignificant => by
        rw [Stmt.shift_ofUnread hus hsignificant]
    rw [ShiftsAt, sentenceWithin, sentenceWithin, readSentence, readSentence,
      Token.filter_isSignificant_shift, List.filter_eq_self.2 hts]
    exact Phrase.read_shift hp.sentence
  | succ room ih =>
    have hderives (us : List Token) (s : Sentence) (hus : ∀ t ∈ us, t.isSignificant)
        (h : sentenceWithin false room us = .ok s) : SentenceFrom room s (withoutComments true us) := by
      have hs := derives_sentenceWithin h
      rwa [List.filter_eq_self.2 hus] at hs
    have hp : (phraseOf false (room + 1) (fun us => branchOf (sentenceWithin false room) us) true ts).Moved n
        (phraseOf false (room + 1) (fun us => branchOf (sentenceWithin false room) us) true
          (ts.map (Token.shift n))) :=
      moved_phraseOf hne hts fun us hus hsignificant =>
        branchOf_shift hderives (fun us hus hsignificant => ih hus hsignificant) hus hsignificant
    rw [ShiftsAt, sentenceWithin, sentenceWithin, readSentence, readSentence,
      Token.filter_isSignificant_shift, List.filter_eq_self.2 hts]
    exact Phrase.read_shift hp.sentence

/-- The same tokens further on are read as the same sentence further on. -/
theorem parseSentence_shift (settings : ReadingSettings) {ts : List Token} (hne : ts ≠ [])
    (hts : ∀ t ∈ ts, t.isSignificant) : ShiftsAt n (parseSentence settings) ts :=
  sentenceWithin_shift settings.memoize settings.maxDepth hne hts

end Prose.Grammar
