import Prose.Proofs.Grammar.AlikeSentence
import Prose.Proofs.Grammar.Calls

/- Branches of conditions. A branch is read from the tokens of its sentence, from which all
   comments are gone by then, with room for one level less. So it is the statement that its
   tokens are on their own when they are read without their comments. For all statements
   but calls that is the statement that they are with their comments, too. A call keeps its
   comments in its marker on its own and in the body of a header, but not in a branch. -/
namespace Prose.Grammar

open Rule

variable {α β : Type} {settings : ReadingSettings} {opening separator : Token} {ts C P : List Token}
  {s : Stmt}

/-! Entries. -/

/-- The tokens that count where comments say nothing. -/
def counted (ts : List Token) : List Token :=
  (ts.filter Token.isSignificant).filter fun t => t.kind != .comment

theorem filter_uncommented (ts : List Token) :
    (ts.filter fun t => t.kind != .comment).filter Token.isSignificant = counted ts :=
  List.filter_comm _ _ _

theorem counted_uncommented : ∀ t ∈ counted ts, t.kind ≠ .comment :=
  fun _ ht => bne_iff_ne.1 (List.mem_filter.1 ht).2

theorem counted_sublist (ts : List Token) : (counted ts).Sublist ts :=
  List.filter_sublist.trans List.filter_sublist

theorem withoutComments_of_drops {entry : Entry} {unannounced : Bool} (h : entryOf? ts = some entry)
    (hdrops : entry.keepsComments = false) :
    withoutComments unannounced ts = ts.filter fun t => t.kind != .comment := by
  rw [withoutComments, h]
  simp [hdrops]

/-- What a first token announces it announces without the comments behind it, too. -/
theorem entryOf?_filter {entry : Entry} (h : entryOf? ts = some entry) :
    entryOf? (ts.filter fun t => t.kind != .comment) = some entry := by
  cases ts with
  | nil => exact h
  | cons t rest =>
    have ht : (t.kind != .comment) = true := by
      refine bne_iff_ne.2 fun hcomment => ?_
      rw [entryOf?, List.head?_cons, Option.bind_some, hcomment] at h
      cases h
    simp only [List.filter_cons, ht, if_true]
    exact h

theorem entryOf?_withoutComments (ts : List Token) : entryOf? (withoutComments true ts) = entryOf? ts := by
  rcases hentry : entryOf? ts with _ | entry
  · rw [withoutComments, hentry]
    exact hentry
  · cases hkeeps : entry.keepsComments with
    | true => rw [withoutComments_of_keeps (by rw [hentry, Option.map_some, hkeeps]), hentry]
    | false => rw [withoutComments_of_drops hentry hkeeps, entryOf?_filter hentry]

/-! What headers and calls are read as. -/

namespace Phrase

variable {p : Phrase} {i : Nat}

theorem gives_header (start first : Nat) (separator : Option Nat) :
    (p.header start first separator).Gives i fun s _ => ∃ label body, s = .header label body := by
  simp only [header]
  split
  · exact .moveTo (.fail _)
  · exact .ite' (fun _ => .moveTo (.fail _)) fun _ => .moveTo (.pure' ⟨_, _, rfl⟩)

theorem gives_labeled : (p.sentenceOf .labeled).Gives 0 fun s _ => ∃ label body, s = .header label body := by
  refine Gives.mono (gives_complete (P := fun s _ => ∃ label body, s = .header label body) ?_)
    fun _ _ h => h.1
  refine .position ((reads_eatAny (by decide) 0).bind' fun keyword j _ => .position ?_)
  refine .ite' (fun _ => ?_) fun _ => gives_header _ _ _
  split
  · exact .fail _
  · exact gives_header _ _ _

/-- What starts with a name and is no header is a call, so its tokens are a marker phrase. -/
theorem gives_call : (p.sentenceOf .invocation).Gives 0 fun s _ =>
    (∃ label body, s = .header label body) ∨ ∃ m, markerPhrase [.intoWord, .inWord] p.tokens = .ok m := by
  refine Gives.mono (gives_firstComplete (P := fun s _ => (∃ label body, s = .header label body) ∨
    ∃ m, markerPhrase [.intoWord, .inWord] p.tokens = .ok m) ?_) fun _ _ h => h.1
  simp only [List.forall_mem_cons]
  refine ⟨.position ?_, .position ?_, nofun⟩
  · split
    · exact .fail _
    · exact Gives.mono (gives_header _ _ _) fun _ _ h => .inl h
  · simp only [took_all.between_eq]
    split
    · exact .moveTo (.fail _)
    · next m hm =>
      refine .ite' (fun _ => .fail _) fun _ => .moveTo ?_
      exact fun _ _ _ _ _ => .inr ⟨m, hm⟩

end Phrase

/-- A statement was announced by its first token, and not as a header; if it was announced
    as a call, its tokens are a marker phrase. -/
theorem entry_of_parseSentence (h : parseSentence settings ts = .ok (.stmt s)) :
    ∃ entry, entryOf? (ts.filter Token.isSignificant) = some entry ∧ entry ≠ .labeled ∧
      (entry = .invocation →
        ∃ m, markerPhrase [.intoWord, .inWord] (ts.filter Token.isSignificant) = .ok m) := by
  rw [parseSentence_eq] at h
  generalize hp : phraseOf _ _ _ true _ = p at h
  have htokens : p.tokens = withoutComments true (ts.filter Token.isSignificant) := by rw [← hp]; rfl
  have hfirst := p.ofKind?_kindAt
  rw [htokens, entryOf?_withoutComments] at hfirst
  rcases hentry : entryOf? (ts.filter Token.isSignificant) with _ | entry
  · simp only [Phrase.sentence, hfirst, hentry] at h
    exact (Phrase.read_eq_ok (P := fun _ => False) (.fail _) h).elim
  · simp only [Phrase.sentence_eq entry (hfirst.trans hentry)] at h
    refine ⟨entry, rfl, ?_, ?_⟩
    · rintro rfl
      obtain ⟨label, body, hheader⟩ := Phrase.read_eq_ok Phrase.gives_labeled h
      cases hheader
    · rintro rfl
      rcases Phrase.read_eq_ok Phrase.gives_call h with ⟨label, body, hheader⟩ | ⟨m, hm⟩
      · cases hheader
      · rw [htokens, withoutComments_of_keeps (by rw [hentry]; rfl)] at hm
        exact ⟨m, hm⟩

/-! Statements without their comments. -/

theorem identifier_of_invocation {k : Kind} (h : Entry.ofKind? k = some .invocation) : k = .identifier := by
  cases k <;> first | rfl | cases h

theorem ok_of_toOption {ε : Type} {x y : Except ε α} {a : α} (h : x.toOption = y.toOption)
    (hy : y = .ok a) : x = .ok a := by
  subst hy
  cases x with
  | error => cases h
  | ok b => exact congrArg Except.ok (Option.some.inj h)

/-- Where the first token announces what keeps no comments, comments change nothing in what
    is read. -/
theorem toOption_uncommented (settings : ReadingSettings) {entry : Entry}
    (hentry : entryOf? (ts.filter Token.isSignificant) = some entry) (hdrops : entry.keepsComments = false) :
    (parseSentence settings (ts.filter fun t => t.kind != .comment)).toOption =
      (parseSentence settings ts).toOption := by
  refine sentenceWithin_toOption _ _ ?_
  rw [filter_uncommented, withoutComments_of_none counted_uncommented,
    withoutComments_of_drops hentry hdrops]
  rfl

/-- A marker phrase stays one without its comments, and so a call stays a call. -/
theorem call_uncommented (settings : ReadingSettings) {m : MarkerPhrase}
    (hentry : entryOf? (ts.filter Token.isSignificant) = some .invocation)
    (hm : markerPhrase [.intoWord, .inWord] (ts.filter Token.isSignificant) = .ok m) :
    ∃ s, parseSentence settings (ts.filter fun t => t.kind != .comment) = .ok (.stmt s) := by
  have hopenings : ∀ k ∈ [Kind.intoWord, .inWord], k.isWordLike := by decide
  have hcan := (splitMarker_ok_iff hopenings).1 ⟨m, hm⟩
  have hkept : ∀ t ∈ counted ts, CanMark t := fun t ht => hcan t (List.mem_of_mem_filter ht)
  obtain ⟨m', hm'⟩ := (splitMarker_ok_iff (i := 0) hopenings).2 hkept
  have hfirst : (counted ts).head?.map Token.kind = some .identifier := by
    obtain ⟨t, ht, hkind⟩ := Option.bind_eq_some_iff.1 (entryOf?_filter hentry)
    rw [counted, ht, Option.map_some, identifier_of_invocation hkind]
  have harrow : ∀ t ∈ ts.filter fun t => t.kind != .comment, t.kind ≠ .arrow := by
    intro t ht harrow
    have hmem : t ∈ ts.filter Token.isSignificant :=
      List.mem_filter.2 ⟨List.mem_of_mem_filter ht, by simp [Token.isSignificant, harrow]⟩
    have hmark := hcan t hmem
    rw [CanMark, harrow] at hmark
    exact absurd hmark (by decide)
  rw [← filter_uncommented] at hfirst hm'
  obtain ⟨span, hread⟩ := parseSentence_call settings hfirst harrow hm'
  exact ⟨_, hread⟩

/-- What is read as a statement is read as one without its comments, too, and as the same
    one unless it is a call and has comments. -/
theorem parseSentence_uncommented (h : parseSentence settings ts = .ok (.stmt s)) :
    ∃ s', parseSentence settings (ts.filter fun t => t.kind != .comment) = .ok (.stmt s') ∧
      (entryOf? (ts.filter Token.isSignificant) ≠ some .invocation ∨ (∀ t ∈ ts, t.kind ≠ .comment) →
        s' = s) := by
  by_cases hnone : ∀ t ∈ ts, t.kind ≠ .comment
  · rw [List.filter_eq_self.2 fun t ht => bne_iff_ne.2 (hnone t ht)]
    exact ⟨s, h, fun _ => rfl⟩
  obtain ⟨entry, hentry, hlabeled, hcall⟩ := entry_of_parseSentence h
  by_cases hinvocation : entry = .invocation
  · subst hinvocation
    obtain ⟨m, hm⟩ := hcall rfl
    obtain ⟨s', hread⟩ := call_uncommented settings hentry hm
    exact ⟨s', hread, fun h => h.elim (absurd hentry) fun h => absurd h hnone⟩
  · have hdrops : entry.keepsComments = false := by
      cases entry <;> first | rfl | exact absurd rfl hlabeled | exact absurd rfl hinvocation
    exact ⟨s, ok_of_toOption (toOption_uncommented settings hentry hdrops) h, fun _ => rfl⟩

/-! Conditions. -/

/-- Behind a rule that always gives something the cursor may be anywhere. -/
theorem Rule.Yields.bind_of_some {x : Rule α} {f : α → Rule β} {Q : β → Prop} {i k : Nat}
    (hx : ∀ s, ∃ a t, x s = (some a, t)) (hf : ∀ a j, (f a).Yields j Q k) : (x >>= f).Yields i Q k := by
  intro s _
  obtain ⟨a, t, ha⟩ := hx s
  rw [bind_some ha]
  exact hf a t.pos t rfl

namespace Phrase

variable {p : Phrase} {i j : Nat}

/-- Whatever the words of a condition are, it is read. -/
theorem exists_condition (stop : Nat) (s : Progress) : ∃ test t, p.condition stop s = (some test, t) := by
  rw [condition, bind_some outcome_eq]
  rcases attempt (p.wholeComparison stop) s with ⟨_ | test, t⟩
  · exact ⟨_, _, rfl⟩
  · exact ⟨test, t, rfl⟩

/-- A condition whose branch can be read has that branch. -/
theorem yields_branching {branch : Stmt} (htokens : p.tokens = opening :: (C ++ separator :: P))
    (hif : opening.kind = .ifWord) (hseparator : separator.kind ∈ [.thenWord, .comma]) (hne : C ≠ [])
    (hC : ∀ t ∈ C, t.kind ∉ [.thenWord, .comma]) (hP : P ≠ []) (hno : ∀ t ∈ P, t.kind ≠ .semicolon)
    (hroom : p.room ≠ 0) (hbranch : p.branch P = (branch, true)) :
    p.sentence.Yields 0 (fun r => ∃ test span, r = .stmt (.conditional test branch span)) p.size := by
  have hall : p.Took 0 (opening :: (C ++ separator :: P)) p.size := htokens ▸ took_all
  obtain ⟨hfirst, hrest⟩ := took_cons.1 hall
  obtain ⟨k, htest, hrest⟩ := took_append.1 hrest
  obtain ⟨hthen, hpiece⟩ := took_cons.1 hrest
  have hlt := (htest.lt_and_le hne).1
  have hconditional : p.conditional.Yields 0 (fun s => ∃ test span, s = .conditional test branch span)
      p.size := by
    refine .position (.bind' (yields_eat hfirst hif) fun _ _ => .position ?_)
    simp only [find?_first hC hseparator htest hthen]
    refine .ite_neg (by omega) (.bind_of_some (exists_condition k) fun test j => .moveTo ?_)
    refine .bind' (yields_single hroom hP hno hbranch hpiece) fun b hb => ?_
    exact .bind' (yields_spanFrom 0) fun span _ => .pure' ⟨test, span, by rw [hb]⟩
  rw [sentence_eq .conditional (by rw [hfirst.kindAt_eq, hif]; rfl)]
  refine .bind' (yields_complete hconditional kindAt_size) fun s hs => .pure' ?_
  obtain ⟨test, span, rfl⟩ := hs
  exact ⟨test, span, rfl⟩

end Phrase

/-- With room for all its tokens a branch is what it is on its own. -/
theorem branchWithin_eq {memoize : Bool} {room : Nat} (hne : ts ≠ []) (hroom : ts.length ≤ room)
    (h : sentenceWithin memoize room ts = .ok (.stmt s)) : branchWithin memoize room ts = (s, true) := by
  have hpos := List.length_pos_iff.2 hne
  cases room with
  | zero => omega
  | succ room =>
    have hless : sentenceWithin memoize (room + 1) ts = sentenceWithin memoize room ts :=
      sentenceWithin_room memoize hroom (by omega)
    rw [branchWithin, branchOf, ← hless, h]

/-- No comment of a condition or of its branch counts. -/
theorem withoutComments_conditional (hif : opening.kind = .ifWord)
    (hseparator : separator.kind ∈ [.thenWord, .comma]) :
    withoutComments true ((opening :: (C ++ separator :: P)).filter Token.isSignificant) =
      opening :: (counted C ++ separator :: counted P) := by
  have hcounts {t : Token} (ht : t.kind ∈ [.ifWord, .thenWord, .comma]) :
      t.isSignificant = true ∧ (t.kind != .comment) = true := by
    simp only [List.mem_cons, List.not_mem_nil, or_false] at ht
    rcases ht with h | h | h <;> simp [Token.isSignificant, h]
  have hopening := hcounts (t := opening) (by simp [hif])
  have hseparator := hcounts (List.mem_cons_of_mem _ hseparator)
  have hentry : entryOf? ((opening :: (C ++ separator :: P)).filter Token.isSignificant) =
      some .conditional := by
    simp only [List.filter_cons, hopening.1, if_true]
    rw [entryOf?, List.head?_cons, Option.bind_some, hif]
    rfl
  rw [withoutComments_of_drops hentry rfl]
  simp only [List.filter_cons, List.filter_append, hopening, hseparator, if_true]
  rfl

/-- A condition whose branch can be read without its comments has that branch. -/
theorem parseSentence_branching {branch : Stmt} (hif : opening.kind = .ifWord)
    (hseparator : separator.kind ∈ [.thenWord, .comma])
    (hC : ∃ t ∈ C, t.isSignificant ∧ t.kind ≠ .comment) (hCno : ∀ t ∈ C, t.kind ∉ [.thenWord, .comma])
    (hP : ∀ t ∈ P, t.kind ≠ .semicolon) (hne : counted P ≠ []) (hroom : settings.maxDepth ≠ 0)
    (hbranch : branchWithin settings.memoize settings.maxDepth (counted P) = (branch, true)) :
    ∃ test span, parseSentence settings (opening :: (C ++ separator :: P)) =
      .ok (.stmt (.conditional test branch span)) := by
  have hcondition : counted C ≠ [] := by
    obtain ⟨t, ht, hcounts, hcomment⟩ := hC
    exact List.ne_nil_of_mem (List.mem_filter.2 ⟨List.mem_filter.2 ⟨ht, hcounts⟩, bne_iff_ne.2 hcomment⟩)
  have hyields := Phrase.yields_branching
    (p := phraseOf settings.memoize settings.maxDepth
      (branchWithin settings.memoize settings.maxDepth) true
      ((opening :: (C ++ separator :: P)).filter Token.isSignificant))
    (withoutComments_conditional hif hseparator) hif hseparator hcondition
    (fun t ht => hCno t ((counted_sublist C).subset ht)) hne
    (fun t ht => hP t ((counted_sublist P).subset ht)) hroom hbranch
  obtain ⟨r, hread, test, span, rfl⟩ := Phrase.exists_read hyields
  rw [parseSentence_eq]
  exact ⟨test, span, hread⟩

/-- The branch of a condition is what its tokens are on their own without their comments. If
    some tokens without a semicolon are read as a statement, then with a condition in front
    of them, and with as much room as they have tokens, they are the statement that they are
    read as without their comments. That is the same statement, unless it is a call and some
    of them are comments. -/
theorem branch_uncommented (hif : opening.kind = .ifWord) (hseparator : separator.kind ∈ [.thenWord, .comma])
    (hC : ∃ t ∈ C, t.isSignificant ∧ t.kind ≠ .comment) (hCno : ∀ t ∈ C, t.kind ∉ [.thenWord, .comma])
    (hP : ∀ t ∈ P, t.kind ≠ .semicolon) (hroom : P.length ≤ settings.maxDepth)
    (h : parseSentence settings P = .ok (.stmt s)) :
    ∃ test branch span,
      parseSentence settings (opening :: (C ++ separator :: P)) =
          .ok (.stmt (.conditional test branch span)) ∧
        parseSentence settings (P.filter fun t => t.kind != .comment) = .ok (.stmt branch) ∧
        (entryOf? (P.filter Token.isSignificant) ≠ some .invocation ∨ (∀ t ∈ P, t.kind ≠ .comment) →
          branch = s) := by
  obtain ⟨branch, hbranch, hsame⟩ := parseSentence_uncommented h
  obtain ⟨entry, hentry, -⟩ := entry_of_parseSentence h
  have hne : counted P ≠ [] := by
    intro hnil
    have hfirst : entryOf? (counted P) = some entry := entryOf?_filter hentry
    rw [hnil] at hfirst
    cases hfirst
  have hlength : (counted P).length ≤ settings.maxDepth := (counted_sublist P).length_le.trans hroom
  have hpiece : branchWithin settings.memoize settings.maxDepth (counted P) = (branch, true) := by
    refine branchWithin_eq hne hlength ?_
    rw [parseSentence, ← sentenceWithin_significant, filter_uncommented] at hbranch
    exact hbranch
  have hpos := List.length_pos_iff.2 hne
  obtain ⟨test, span, hread⟩ :=
    parseSentence_branching hif hseparator hC hCno hP hne (by omega) hpiece
  exact ⟨test, branch, span, hread, hbranch, hsame⟩

/-- `if a x is 1 then return (at once) 2` -/
theorem branch_uncommented_return :
    let C : List Token := [⟨.indefiniteArticle, "a", 3, 4⟩, ⟨.identifier, "x", 5, 6⟩,
      ⟨.isWord, "is", 7, 9⟩, ⟨.intLiteral, "1", 10, 11⟩]
    let P : List Token := [⟨.returnWord, "return", 17, 23⟩, ⟨.comment, "(at once)", 24, 33⟩,
      ⟨.intLiteral, "2", 34, 35⟩]
    let opening : Token := ⟨.ifWord, "if", 0, 2⟩
    let separator : Token := ⟨.thenWord, "then", 12, 16⟩
    let s : Stmt := .result (.int 2 ⟨34, 35⟩) ⟨17, 35⟩
    parseSentence {} P = .ok (.stmt s) ∧ ∃ test span,
      parseSentence {} (opening :: (C ++ separator :: P)) = .ok (.stmt (.conditional test s span)) := by
  intro C P opening separator s
  have hread : parseSentence {} P = .ok (.stmt s) := by cbv
  have hif : opening.kind = .ifWord := rfl
  have hthen : separator.kind ∈ [.thenWord, .comma] := by decide
  have hC : ∃ t ∈ C, t.isSignificant ∧ t.kind ≠ .comment := ⟨⟨.identifier, "x", 5, 6⟩, by decide⟩
  obtain ⟨test, branch, span, hconditional, -, hsame⟩ :=
    branch_uncommented hif hthen hC (by decide) (by decide) (by decide) hread
  obtain rfl := hsame (.inl (by decide))
  exact ⟨hread, test, span, hconditional⟩

/-- `do (quietly) it` keeps its comment, but not behind `if a x is 1 then`. -/
theorem branch_comment_dropped :
    ¬∀ (settings : ReadingSettings) (opening separator : Token) (C P : List Token) (s : Stmt),
      opening.kind = .ifWord → separator.kind = .thenWord →
      (∃ t ∈ C, t.isSignificant ∧ t.kind ≠ .comment) → (∀ t ∈ C, t.kind ∉ [.thenWord, .comma]) →
      (∀ t ∈ P, t.kind ≠ .semicolon) → (opening :: (C ++ separator :: P)).length ≤ settings.maxDepth →
      parseSentence settings P = .ok (.stmt s) →
      ∃ test span, parseSentence settings (opening :: (C ++ separator :: P)) =
        .ok (.stmt (.conditional test s span)) := by
  intro h
  let C : List Token := [⟨.indefiniteArticle, "a", 3, 4⟩, ⟨.identifier, "x", 5, 6⟩,
    ⟨.isWord, "is", 7, 9⟩, ⟨.intLiteral, "1", 10, 11⟩]
  let P : List Token := [⟨.identifier, "do", 17, 19⟩, ⟨.comment, "(quietly)", 20, 29⟩,
    ⟨.identifier, "it", 30, 32⟩]
  let opening : Token := ⟨.ifWord, "if", 0, 2⟩
  let separator : Token := ⟨.thenWord, "then", 12, 16⟩
  let test : Expr := .comparison .equals (.reference (.plain "x" ⟨3, 6⟩) ⟨3, 6⟩) (.int 1 ⟨10, 11⟩) ⟨3, 11⟩
  have hcall : parseSentence {} P =
      .ok (.stmt (.invocation "do (quietly) it" [] none ⟨17, 32⟩)) := by cbv
  have hbranch : parseSentence {} (opening :: (C ++ separator :: P)) =
      .ok (.stmt (.conditional test (.invocation "do it" [] none ⟨17, 32⟩) ⟨0, 32⟩)) := by cbv
  obtain ⟨test', span, hread⟩ := h {} opening separator C P _ rfl rfl
    ⟨⟨.identifier, "x", 5, 6⟩, by decide⟩ (by decide) (by decide) (by decide) hcall
  rw [hbranch] at hread
  cases Stmt.conditional.inj (Sentence.stmt.inj (Except.ok.inj hread)) with
  | intro _ hrest => exact absurd (Stmt.invocation.inj hrest.1).1 (by decide)

end Prose.Grammar
