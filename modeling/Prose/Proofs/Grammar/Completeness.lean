import Prose.Proofs.Grammar.Outside
import Prose.Proofs.Grammar.Spoken
import Prose.Proofs.Grammar.StatementComplete
import Prose.Proofs.Memoization

/- Completeness of the grammar. Every statement that can be said has tokens that say it,
   and whatever tokens say it are read as that statement, up to places. For a statement
   without a condition that is what its rules do. A condition ends at the first `then` or
   comma and its branch is cut at semicolons, and each piece is read as a sentence with
   room for one condition less. -/
namespace Prose

open Grammar Rule

variable {ts us : List Token}

/-! Cutting at semicolons. -/

namespace Token

variable {separator : Kind} {s t : Token} {run : List Token} {runs : List (List Token)}

theorem splitAt_separator (hs : s.kind = separator) (us : List Token) :
    splitAt separator (s :: us) = splitAt separator us := by
  rw [splitAt.eq_def]
  simp only [hs, beq_self_eq_true, if_true]

/-- A token before a separator is the last one of its run. -/
theorem splitAt_last (ht : t.kind ≠ separator) (hs : s.kind = separator) (us : List Token) :
    splitAt separator (t :: s :: us) = [t] :: splitAt separator us := by
  rw [splitAt.eq_def]
  simp only [beq_false_of_ne ht, Bool.false_eq_true, if_false, splitAt_separator hs]
  split <;> simp_all

/-- A token before one of the same run. -/
theorem splitAt_word {t' : Token} (ht : t.kind ≠ separator) (ht' : t'.kind ≠ separator)
    (h : splitAt separator (t' :: ts) = run :: runs) :
    splitAt separator (t :: t' :: ts) = (t :: run) :: runs := by
  rw [splitAt.eq_def]
  simp only [beq_false_of_ne ht, beq_false_of_ne ht', Bool.false_eq_true, if_false, h]

/-- Tokens that are no separators stand in one run. -/
theorem splitAt_append (hne : ts ≠ []) (hts : ∀ t ∈ ts, t.kind ≠ separator)
    (hs : s.kind = separator) (us : List Token) :
    splitAt separator (ts ++ s :: us) = ts :: splitAt separator us := by
  induction ts with
  | nil => exact absurd rfl hne
  | cons t ts ih =>
    have ht := hts t List.mem_cons_self
    cases ts with
    | nil => exact splitAt_last ht hs us
    | cons t' ts =>
      have hrest : ∀ u ∈ t' :: ts, u.kind ≠ separator := fun u hu => hts u (List.mem_cons_of_mem _ hu)
      exact splitAt_word ht (hrest t' List.mem_cons_self) (ih (List.cons_ne_nil _ _) hrest)

theorem splitAt_self (hne : ts ≠ []) (hts : ∀ t ∈ ts, t.kind ≠ separator) :
    splitAt separator ts = [ts] := by
  induction ts with
  | nil => exact absurd rfl hne
  | cons t ts ih =>
    have ht := hts t List.mem_cons_self
    cases ts with
    | nil =>
      rw [splitAt.eq_def]
      simp only [beq_false_of_ne ht, Bool.false_eq_true, if_false]
      rfl
    | cons t' ts =>
      have hrest : ∀ u ∈ t' :: ts, u.kind ≠ separator := fun u hu => hts u (List.mem_cons_of_mem _ hu)
      exact splitAt_word ht (hrest t' List.mem_cons_self) (ih (List.cons_ne_nil _ _) hrest)

end Token

namespace Grammar

variable {s : Stmt}

theorem isComparison_unplaced (e : Expr) : e.unplaced.isComparison = e.isComparison := by
  cases e <;> rfl

theorem ne_nil_of_plainly (h : Plainly s ts) : ts ≠ [] := by
  cases h with
  | result hopening =>
    intro h
    obtain ⟨rfl, -⟩ := List.append_eq_nil_iff.1 h
    simp at hopening
  | _ => exact List.cons_ne_nil _ _

/-! Branches of a condition. -/

/-- The tokens are read as the statement, all of them. -/
def ReadsAs (branch : List Token → Stmt × Bool) (ts : List Token) (s : Stmt) : Prop :=
  ∃ s', branch ts = (s', true) ∧ s'.unplaced = s.unplaced

/-- Statements between semicolons are read one by one. -/
theorem several_read {branch : List Token → Stmt × Bool} {body : List Stmt}
    (h : Several body ts) (hbranch : ∀ s ∈ body, ∀ us, Plainly s us → ReadsAs branch us s) :
    ((Token.splitAt .semicolon ts).map branch).length = body.length ∧
      Stmt.unplacedAll (((Token.splitAt .semicolon ts).map branch).map Prod.fst) =
        Stmt.unplacedAll body := by
  have hno {s : Stmt} {us : List Token} (h : Plainly s us) : ∀ t ∈ us, t.kind ≠ .semicolon :=
    fun t ht hkind => avoids_plainly h t ht (hkind ▸ List.mem_cons_self)
  induction h with
  | last h =>
    obtain ⟨s', hs', hlike⟩ := hbranch _ List.mem_cons_self _ h
    rw [Token.splitAt_self (ne_nil_of_plainly h) (hno h)]
    simp only [List.map_cons, List.map_nil, hs', Stmt.unplacedAll, hlike, List.length_cons,
      List.length_nil, and_self]
  | more h hsemicolon _ ih =>
    obtain ⟨s', hs', hlike⟩ := hbranch _ List.mem_cons_self _ h
    obtain ⟨hlength, hall⟩ := ih fun s hs => hbranch s (List.mem_cons_of_mem _ hs)
    rw [Token.splitAt_append (ne_nil_of_plainly h) (hno h) hsemicolon]
    simp only [List.map_cons, hs', Stmt.unplacedAll, hlike, List.length_cons, hlength, hall, and_self]

namespace Phrase

variable {p : Phrase} {i j : Nat}

/-- A single branch that could be read stands for itself. -/
theorem yields_single (hroom : p.room ≠ 0) (hne : us ≠ []) (hno : ∀ t ∈ us, t.kind ≠ .semicolon)
    (hread : p.branch us = (s, true)) (htook : p.Took i us p.size) :
    p.branchStatement.Yields i (· = s) p.size := by
  refine .position (.ite_neg hroom ?_)
  simp only [htook.between_eq, Token.splitAt_self hne hno, List.map_cons, List.map_nil, hread]
  exact .ite_neg (by simp) (.moveTo (.pure' rfl))

theorem yields_branch_one (hroom : p.room ≠ 0) (hne : us ≠ []) (hno : ∀ t ∈ us, t.kind ≠ .semicolon)
    (hread : ReadsAs p.branch us s) (htook : p.Took i us p.size) :
    p.branchStatement.Yields i (·.unplaced = s.unplaced) p.size := by
  obtain ⟨s', hs', hlike⟩ := hread
  exact (yields_single hroom hne hno hs' htook).mono fun b hb => hb ▸ hlike

/-- Several branches are a block. -/
theorem yields_branch_several {body : List Stmt} {inner : Span} (hroom : p.room ≠ 0)
    (h : Several body us) (hlength : 2 ≤ body.length)
    (hbranch : ∀ s ∈ body, ∀ us, Plainly s us → ReadsAs p.branch us s)
    (htook : p.Took i us p.size) :
    p.branchStatement.Yields i (·.unplaced = (Stmt.block body inner).unplaced) p.size := by
  obtain ⟨hcount, hall⟩ := several_read h hbranch
  refine .position (.ite_neg hroom ?_)
  have hnonempty : ¬(Token.splitAt .semicolon us).isEmpty = true := by
    intro h
    rw [List.isEmpty_iff.1 h, List.map_nil, List.length_nil] at hcount
    omega
  simp only [htook.between_eq]
  refine .ite_neg hnonempty (.moveTo ?_)
  generalize (Token.splitAt .semicolon us).map p.branch = read at hcount hall ⊢
  have hblock : (p.spanFrom i >>= fun span => pure (Stmt.block (read.map Prod.fst) span)).Yields p.size
      (·.unplaced = (Stmt.block body inner).unplaced) p.size :=
    .bind' (yields_spanFrom i) fun _ _ => .pure' (by simp only [Stmt.unplaced, hall])
  -- a branch alone would stand for itself, but there are at least two
  rcases read with - | ⟨⟨s, complete⟩, - | ⟨r, rs⟩⟩
  · simp at hcount; omega
  · simp at hcount; omega
  · cases complete <;> exact hblock

/-- Behind tokens of other kinds, the first token of some kinds is the one that stands there. -/
theorem find?_first {kinds : List Kind} {separator : Token} {k : Nat}
    (hts : ∀ t ∈ ts, t.kind ∉ kinds) (hseparator : separator.kind ∈ kinds) (htook : p.Took i ts k)
    (htook' : p.Took k [separator] (k + 1)) : p.find? i kinds = some k := by
  obtain ⟨⟨rest, hrest⟩, -⟩ := htook.append htook'
  have hnone : ts.findIdx? (fun t => kinds.contains t.kind) = none := by
    refine List.findIdx?_eq_none_iff.2 fun t ht => Bool.eq_false_iff.2 fun h => ?_
    exact hts t ht (List.contains_iff_mem.1 h)
  have hsome : (separator :: rest).findIdx? (fun t => kinds.contains t.kind) = some 0 := by
    rw [List.findIdx?_cons, if_pos (List.contains_iff_mem.2 hseparator)]
  rw [find?, ← hrest, List.append_assoc, List.singleton_append, List.findIdx?_append, hnone, hsome,
    htook.2, Nat.add_comm i]
  simp

/-- The first `then` or comma behind an expression is the one that stands there. -/
theorem find?_separator {separator : Token} {k : Nat} (hts : Avoids outsideExpressions ts)
    (hseparator : separator.kind ∈ [.thenWord, .comma]) (htook : p.Took i ts k)
    (htook' : p.Took k [separator] (k + 1)) : p.find? i [.thenWord, .comma] = some k :=
  find?_first (fun t ht h => hts t ht (List.mem_append_left _ h)) hseparator htook htook'

/-- A condition is read with its branch, up to the end. -/
theorem yields_conditional {test : Expr} {branch : Stmt} {span : Span} {opening separator : Token}
    (hp : p.memoize = false) (hif : opening.kind = .ifWord) (htest : Shown test ts)
    (hsay : test.Sayable) (hcomparison : test.isComparison = true)
    (hseparator : separator.kind ∈ [.thenWord, .comma])
    (htook : p.Took 0 (opening :: (ts ++ separator :: us)) p.size)
    (hbranch : ∀ i, p.Took i us p.size →
      p.branchStatement.Yields i (·.unplaced = branch.unplaced) p.size) :
    p.sentence.Yields 0 (Sentence.IsLike (.conditional test branch span)) p.size := by
  obtain ⟨hfirst, hrest⟩ := took_cons.1 htook
  obtain ⟨k, hts, hrest⟩ := took_append.1 hrest
  obtain ⟨hsecond, hus⟩ := took_cons.1 hrest
  have hentry := hfirst.kindAt_eq.trans hif
  have hlt := (hts.lt_and_le (startsWith_shown htest hsay).ne_nil).1
  have hk : p.kindAt k ∉ afterExpression := by
    have hkinds : ∀ kind ∈ [Kind.thenWord, .comma], kind ∉ afterExpression := by decide
    rw [hsecond.kindAt_eq]
    exact hkinds _ hseparator
  have hcondition : (p.condition k).Yields 1 (·.unplaced = test.unplaced) k := by
    refine .outcome (P := fun e => e.unplaced = test.unplaced) (j := k) (.attempt ?_)
      fun e he => .pure' he
    rw [wholeComparison_eq]
    refine .bind' (yields_sayable hp htest hsay hts hk) fun e he s hs => ⟨e, s, ?_, he, hs⟩
    -- places do not matter for what kind of expression the test is
    have hsame : e.isComparison = true := by
      rw [← isComparison_unplaced, he, isComparison_unplaced, hcomparison]
    rw [comparisonTo, if_pos ⟨hsame, hs⟩]
  rw [sentence_eq .conditional (by rw [hentry]; rfl)]
  refine yields_statementSentence (yields_complete ?_ kindAt_size)
  refine .position (.bind' (yields_eat hfirst hif) fun _ _ => .position ?_)
  simp only [find?_separator (avoids_shown htest) hseparator hts hsecond]
  refine .ite_neg (by omega) (.bind' hcondition fun e he => .moveTo ?_)
  refine .bind' (hbranch _ hus) fun b hb => .bind' (yields_spanFrom 0) fun _ _ => .pure' ?_
  simp only [Stmt.unplaced, he, hb]

end Phrase

/-! Whole sentences. -/

theorem filter_significant (hts : Avoids outsideSentences ts) :
    ts.filter Token.isSignificant = ts := by
  refine List.filter_eq_self.2 fun t ht => ?_
  have hblank : t.kind ≠ .blank := fun h => hts t ht (by rw [h]; decide)
  have hstop : t.kind ≠ .stop := fun h => hts t ht (by rw [h]; decide)
  rw [Token.isSignificant, bne_iff_ne.2 hblank, bne_iff_ne.2 hstop]
  rfl

theorem withoutComments_of_none {unannounced : Bool} (h : ∀ t ∈ ts, t.kind ≠ .comment) :
    withoutComments unannounced ts = ts := by
  unfold withoutComments
  split
  · rfl
  · exact List.filter_eq_self.2 fun t ht => bne_iff_ne.2 (h t ht)

/-- Some tokens are read as a sentence by what their phrase gives. -/
theorem readSentence_eq {room : Nat} {branch : List Token → Stmt × Bool}
    (hts : Avoids outsideSentences ts)
    (h : ∀ p : Phrase, p.tokens = ts → p.memoize = false → p.room = room → p.branch = branch →
      p.sentence.Yields 0 (Sentence.IsLike s) p.size) :
    ∃ s', readSentence false room branch ts = .ok (.stmt s') ∧ s'.unplaced = s.unplaced := by
  have hcomments : withoutComments true ts = ts :=
    withoutComments_of_none fun t ht h => hts t ht (by rw [h]; decide)
  obtain ⟨sentence, t, hrun, hlike, -⟩ :=
    h (phraseOf false room branch true ts) hcomments rfl rfl rfl {} rfl
  rw [readSentence, filter_significant hts]
  simp only [Phrase.read, hrun]
  cases sentence with
  | stmt s' => exact ⟨s', rfl, hlike⟩
  | header => exact hlike.elim

/-- A branch is read as what it is read as by itself with less room. -/
theorem readsAs_branchWithin {room : Nat} {s' : Stmt}
    (h : sentenceWithin false room ts = .ok (.stmt s')) (hlike : s'.unplaced = s.unplaced) :
    ReadsAs (branchWithin false (room + 1)) ts s := by
  refine ⟨s', ?_, hlike⟩
  rw [branchWithin, branchOf, h]

/-- What says a statement without a condition is read as that statement. -/
theorem plain_read (room : Nat) (h : Plainly s ts) (hs : s.IsPlain) :
    ∃ s', sentenceWithin false room ts = .ok (.stmt s') ∧ s'.unplaced = s.unplaced := by
  rw [sentenceWithin_eq]
  refine readSentence_eq (avoids_plainly h).sentence fun p htokens hp _ _ => ?_
  exact Phrase.yields_plain hp h hs (htokens ▸ Phrase.took_all) Phrase.kindAt_size

theorem isPlain_of_plainly (h : Plainly s ts) (hs : s.IsNested) : s.IsPlain := by
  cases h <;> exact hs

/-- No semicolon is part of what says conditions upon conditions. -/
theorem avoids_nested (h : s.Worded ts) (hs : s.IsNested) : Avoids outsideStatements ts := by
  have hif : Kind.ifWord ∉ outsideStatements := by decide
  have hthen : ∀ k ∈ [Kind.thenWord, .comma], k ∉ outsideStatements := by decide
  induction h with
  | plain h => exact avoids_plainly h
  | several => exact hs.2.2.elim
  | conditional hopening htest hseparator _ ih =>
    exact .cons (hopening ▸ hif) ((avoids_shown htest).statement.append
      (.cons (hthen _ hseparator) (ih hs.2.2)))

theorem ne_nil_of_worded (h : s.Worded ts) : ts ≠ [] := by
  cases h with
  | plain h => exact ne_nil_of_plainly h
  | conditional => exact List.cons_ne_nil _ _
  | several => exact List.cons_ne_nil _ _

/-- What says conditions upon conditions is read as those, if there is room for all of them. -/
theorem nested_read {room : Nat} (h : s.Worded ts) (hs : s.IsNested) (hroom : s.depth ≤ room) :
    ∃ s', sentenceWithin false room ts = .ok (.stmt s') ∧ s'.unplaced = s.unplaced := by
  have hall := avoids_worded h
  -- on how the conditions are said; each takes one of the room that is left
  induction h generalizing room with
  | plain h => exact plain_read room h (isPlain_of_plainly h hs)
  | several => exact hs.2.2.elim
  | conditional hif htest hseparator hbranch ih =>
    obtain ⟨hsay, hcomparison, hnested⟩ := hs
    cases room with
    | zero => exact absurd hroom (Nat.not_succ_le_zero _)
    | succ room =>
      obtain ⟨s', hs', hlike⟩ := ih hnested (Nat.le_of_succ_le_succ hroom) (avoids_worded hbranch)
      have hread := readsAs_branchWithin hs' hlike
      have hno := avoids_nested hbranch hnested
      rw [sentenceWithin_eq]
      refine readSentence_eq hall fun p htokens hp hroom hbranch' => ?_
      refine Phrase.yields_conditional hp hif htest hsay hcomparison hseparator
        (htokens ▸ Phrase.took_all) fun i htook => ?_
      refine Phrase.yields_branch_one (by rw [hroom]; exact Nat.succ_ne_zero _)
        (ne_nil_of_worded hbranch) (fun t ht hkind => ?_) (hbranch' ▸ hread) htook
      exact hno t ht (hkind ▸ List.mem_cons_self)

/-- What says a statement is read as that statement, if there is room for its conditions. -/
theorem sayable_read {room : Nat} (h : s.Worded ts) (hs : s.Sayable) (hroom : s.depth ≤ room) :
    ∃ s', sentenceWithin false room ts = .ok (.stmt s') ∧ s'.unplaced = s.unplaced := by
  have hall := avoids_worded h
  cases h with
  | plain h =>
    have hplain : s.IsPlain := by cases h <;> exact hs
    exact plain_read room h hplain
  | @conditional test branch _ _ _ _ _ hif htest hseparator hbranch =>
    refine nested_read (.conditional hif htest hseparator hbranch) ?_ hroom
    cases branch with
    | block => cases hbranch with | plain h => cases h
    | _ => exact hs
  | several hif htest hseparator hbody =>
    obtain ⟨hsay, hcomparison, hlength, hplain⟩ := hs
    cases room with
    | zero => exact absurd hroom (Nat.not_succ_le_zero _)
    | succ room =>
      rw [sentenceWithin_eq]
      refine readSentence_eq hall fun p htokens hp hroom hbranch => ?_
      refine Phrase.yields_conditional hp hif htest hsay hcomparison hseparator
        (htokens ▸ Phrase.took_all) fun i htook => ?_
      refine Phrase.yields_branch_several (by rw [hroom]; exact Nat.succ_ne_zero _) hbody hlength
        (fun s hs us h => ?_) htook
      obtain ⟨s', hs', hlike⟩ := plain_read room h (hplain s hs)
      exact hbranch ▸ readsAs_branchWithin hs' hlike

end Grammar

/-- The grammar is complete. Every statement that can be said, with no more conditions one
    below the other than the settings have room for, has tokens that say it; and whatever
    tokens say it, with any blanks between them, are read as that statement, up to places. -/
theorem sentence_complete {s : Stmt} {settings : ReadingSettings} (hs : s.Sayable)
    (hdepth : s.depth ≤ settings.maxDepth) :
    (∃ ts : List Token, s.Worded (ts.filter Token.isSignificant)) ∧
      ∀ ts : List Token, s.Worded (ts.filter Token.isSignificant) →
        ∃ s', parseSentence settings ts = .ok (.stmt s') ∧ s'.unplaced = s.unplaced := by
  constructor
  · obtain ⟨ts, hts⟩ := hs.exists_worded
    refine ⟨ts, ?_⟩
    rwa [filter_significant (avoids_worded hts)]
  · intro ts hts
    have hread := sayable_read hts hs hdepth
    rwa [sentenceWithin_significant, ← sentenceWithin_memoize settings.memoize] at hread

/-- `if a box's lid is less than 5 plus 2 multiplied by 3 then add 1 to a count; return null` -/
theorem sentence_complete_if :
    let lid : Expr := .reference ⟨"lid", .zero, [⟨"box", .zero⟩]⟩ .zero
    let product : Expr := .math .multiply (.int 2 .zero) (.int 3 .zero) .zero
    let test : Expr := .comparison .less lid (.math .plus (.int 5 .zero) product .zero) .zero
    let count : Stmt := .expression (.update true .plus (.int 1 .zero) (.plain "count" .zero) .zero) .zero
    let s : Stmt := .conditional test (.block [count, .result (.null .zero) .zero] .zero) .zero
    s.Sayable ∧ s.depth ≤ ({} : ReadingSettings).maxDepth ∧
      (∃ ts : List Token, s.Worded (ts.filter Token.isSignificant)) ∧
        ∀ ts : List Token, s.Worded (ts.filter Token.isSignificant) →
          ∃ s', parseSentence {} ts = .ok (.stmt s') ∧ s'.unplaced = s.unplaced := by
  intro lid product test count s
  have hs : s.Sayable := by
    simp [s, test, product, lid, count, Stmt.Sayable, Stmt.IsPlain, Expr.Sayable, Expr.IsCombined,
      Expr.IsOperand, Expr.IsLiteral, Expr.Canonical, Expr.Arithmetic, Expr.isSum, Expr.isMath,
      Expr.isComparison, MathOp.isFactor, Text.maxInteger]
  have hdepth : s.depth ≤ ({} : ReadingSettings).maxDepth := by decide
  exact ⟨hs, hdepth, sentence_complete hs hdepth⟩

end Prose
