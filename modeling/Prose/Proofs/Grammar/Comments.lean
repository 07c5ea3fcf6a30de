import Prose.Proofs.Grammar.Branches

/- Comments outside of markers. A sentence that is no header and no call is the same with
   comments between its tokens and without them, in its branches and behind its last token,
   too. In front of its first token a comment is not skipped: what sort of sentence it is says
   the first token of all, and a comment says nothing. So such a sentence is not read, and
   the comment is what is found where a statement was expected. -/
namespace Prose.Grammar

variable {settings : ReadingSettings} {ts : List Token} {first : Token} {entry : Entry} {x : Sentence}

/-- A sentence whose first token announces nothing fails at that token. -/
theorem parseSentence_unannounced (settings : ReadingSettings)
    (hfirst : (ts.filter Token.isSignificant).head? = some first)
    (hnone : Entry.ofKind? first.kind = none) :
    parseSentence settings ts = .error (.mismatch first ["statement"]) := by
  have hentry : entryOf? (ts.filter Token.isSignificant) = none := by
    rw [entryOf?, hfirst, Option.bind_some, hnone]
  have hkept : withoutComments true (ts.filter Token.isSignificant) = ts.filter Token.isSignificant := by
    rw [withoutComments, hentry]
    rfl
  rw [parseSentence_eq]
  generalize hp : phraseOf _ _ _ true _ = p
  have htokens : p.tokens = ts.filter Token.isSignificant := by rw [← hp, phraseOf, hkept]
  have htoken : p.tokenAt 0 = first := by
    rw [Phrase.tokenAt, htokens, ← List.head?_eq_getElem?, hfirst]
    rfl
  have hsentence : p.sentence = Rule.fail "statement" := by
    rw [Phrase.sentence, p.ofKind?_kindAt, htokens, hentry]
  have hread : p.read (Rule.fail "statement" : Rule Sentence) =
      .error (.mismatch (p.tokenAt 0) ["statement"]) := rfl
  simp only [hsentence, hread, htoken]

/-- Comments outside of markers are trivia behind the first token, and only there. Let the first
    of some tokens that is no comment announce a sentence that keeps no comments, and let the
    sentence be read without its comments. With them, the same sentence is read if the first
    token is no comment, and else none is: the first comment is found instead of a statement. -/
theorem comments_behind_first (hentry : entryOf? (counted ts) = some entry)
    (hdrops : entry.keepsComments = false)
    (h : parseSentence settings (ts.filter fun t => t.kind != .comment) = .ok x) :
    ∃ first, (ts.filter Token.isSignificant).head? = some first ∧
      parseSentence settings ts =
        if first.kind = .comment then .error (.mismatch first ["statement"]) else .ok x := by
  cases hkept : ts.filter Token.isSignificant with
  | nil =>
    rw [counted, hkept] at hentry
    cases hentry
  | cons first rest =>
    have hfirst : (ts.filter Token.isSignificant).head? = some first := by rw [hkept]; rfl
    refine ⟨first, rfl, ?_⟩
    by_cases hcomment : first.kind = .comment
    · rw [if_pos hcomment]
      exact parseSentence_unannounced settings hfirst (by rw [hcomment]; rfl)
    · rw [if_neg hcomment]
      have hfull : entryOf? (ts.filter Token.isSignificant) = some entry := by
        have hcounts : (first.kind != .comment) = true := bne_iff_ne.2 hcomment
        rw [← hentry, counted, hkept, List.filter_cons, hcounts]
        rfl
      exact ok_of_toOption (toOption_uncommented settings hfull hdrops).symm h

/-- `if a x is 1, (now) return (at once) 2 (done)` is read without its comments. -/
theorem comments_behind_first_condition :
    let ts : List Token := [⟨.ifWord, "if", 0, 2⟩, ⟨.indefiniteArticle, "a", 3, 4⟩,
      ⟨.identifier, "x", 5, 6⟩, ⟨.isWord, "is", 7, 9⟩, ⟨.intLiteral, "1", 10, 11⟩, ⟨.comma, ",", 11, 12⟩,
      ⟨.comment, "(now)", 13, 18⟩, ⟨.returnWord, "return", 19, 25⟩, ⟨.comment, "(at once)", 26, 35⟩,
      ⟨.intLiteral, "2", 36, 37⟩, ⟨.comment, "(done)", 38, 44⟩]
    let test : Expr := .comparison .equals (.reference (.plain "x" ⟨3, 6⟩) ⟨3, 6⟩) (.int 1 ⟨10, 11⟩) ⟨3, 11⟩
    let x : Sentence := .stmt (.conditional test (.result (.int 2 ⟨36, 37⟩) ⟨19, 37⟩) ⟨0, 37⟩)
    entryOf? (counted ts) = some .conditional ∧ Entry.conditional.keepsComments = false ∧
      parseSentence {} (ts.filter fun t => t.kind != .comment) = .ok x ∧ parseSentence {} ts = .ok x := by
  intro ts test x
  have hentry : entryOf? (counted ts) = some .conditional := by decide
  have hread : parseSentence {} (ts.filter fun t => t.kind != .comment) = .ok x := by cbv
  obtain ⟨first, hfirst, hsame⟩ := comments_behind_first hentry rfl hread
  have hif : first = ⟨.ifWord, "if", 0, 2⟩ := Option.some.inj (hfirst.symm.trans (by decide))
  rw [hif] at hsame
  exact ⟨hentry, rfl, hread, hsame⟩

/-- `(note) return 1` is not read, though `return 1` is. -/
theorem comment_first_rejected :
    ¬∀ (settings : ReadingSettings) (ts : List Token) (entry : Entry) (x : Sentence),
      entryOf? (counted ts) = some entry → entry.keepsComments = false →
      parseSentence settings (ts.filter fun t => t.kind != .comment) = .ok x →
      parseSentence settings ts = .ok x := by
  intro h
  let note : Token := ⟨.comment, "(note)", 0, 6⟩
  let ts : List Token := [note, ⟨.returnWord, "return", 7, 13⟩, ⟨.intLiteral, "1", 14, 15⟩]
  have hresult : parseSentence {} (ts.filter fun t => t.kind != .comment) =
      .ok (.stmt (.result (.int 1 ⟨14, 15⟩) ⟨7, 15⟩)) := by cbv
  have hfailure : parseSentence {} ts = .error (.mismatch note ["statement"]) :=
    parseSentence_unannounced {} rfl rfl
  have hread := h {} ts .result _ rfl rfl hresult
  rw [hfailure] at hread
  cases hread

end Prose.Grammar
