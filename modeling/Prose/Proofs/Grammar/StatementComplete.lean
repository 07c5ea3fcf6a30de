import Prose.Proofs.Grammar.DeclarationComplete
import Prose.Grammar.Statement

/- Completeness of statements. What says a statement without a condition is read as that
   by the rules that its first word announces. -/
namespace Prose.Grammar

open Rule

/-- The sentence is a statement, the same up to places. -/
def Sentence.IsLike (s : Stmt) : Sentence → Prop
  | .stmt s' => s'.unplaced = s.unplaced
  | .header _ _ => False

namespace Phrase

variable {p : Phrase} {i j : Nat} {ts us : List Token}

/-! Statements that change something. -/

/-- `add <expr> to <ref>` and `subtract <expr> from <ref>` -/
theorem yields_sumPhrase {op : MathOp} {operand : Expr} {target : Reference} {inner : Span}
    {verb preposition : Token} (hp : p.memoize = false)
    (hverb : (op, verb.kind, preposition.kind) ∈ sumVerbs) (hoperand : Shown operand ts)
    (hsay : operand.Sayable) (htarget : Possessions target.path us)
    (htook : p.Took i (verb :: (ts ++ preposition :: us)) j) (hj : p.kindAt j = .stop) :
    (p.arithmeticPhrase true).Yields i
      (·.unplaced = (Expr.update true op operand target inner).unplaced) j := by
  obtain ⟨hfirst, hrest⟩ := took_cons.1 htook
  obtain ⟨k, hts, hrest⟩ := took_append.1 hrest
  obtain ⟨hsecond, hus⟩ := took_cons.1 hrest
  have hread (kind : Kind) (hkind : preposition.kind = kind) (hafter : kind ∉ afterExpression) :
      (p.advance >>= fun _ => p.expression >>= fun operand => p.eat kind >>= fun _ =>
        p.reference >>= fun target => p.spanFrom i >>= fun span =>
          pure (Expr.update true op operand target span)).Yields i
        (·.unplaced = (Expr.update true op operand target inner).unplaced) j := by
    have hk : p.kindAt k = kind := hsecond.kindAt_eq.trans hkind
    refine .bind' (yields_advance hfirst) fun _ _ => ?_
    refine .bind' (yields_sayable hp hoperand hsay hts (by rwa [hk])) fun a ha => ?_
    refine .bind' (yields_eat hsecond hkind) fun _ _ => ?_
    refine .bind' (yields_reference hp htarget hus (by rw [hj]; decide)) fun r hr => ?_
    refine .bind' (yields_spanFrom i) fun _ _ => .pure' ?_
    simp only [Expr.unplaced, ha, unplaced_eq_of_path hr]
  refine .position ?_
  simp only [sumVerbs, List.mem_cons, List.not_mem_nil, or_false, Prod.mk.injEq] at hverb
  rcases hverb with ⟨rfl, hv, hpreposition⟩ | ⟨rfl, hv, hpreposition⟩
  · simp only [hfirst.kindAt_eq, hv]
    exact hread _ hpreposition (by decide)
  · simp only [hfirst.kindAt_eq, hv]
    exact hread _ hpreposition (by decide)

/-- `multiply <ref> by <expr>` and `divide <ref> by <expr>` -/
theorem yields_factorPhrase {op : MathOp} {operand : Expr} {target : Reference} {inner : Span}
    {verb preposition : Token} (hp : p.memoize = false) (hverb : (op, verb.kind) ∈ factorVerbs)
    (htarget : Possessions target.path ts) (hby : preposition.kind = .byWord)
    (hoperand : Shown operand us) (hsay : operand.Sayable)
    (htook : p.Took i (verb :: (ts ++ preposition :: us)) j) (hj : p.kindAt j = .stop) :
    (p.arithmeticPhrase true).Yields i
      (·.unplaced = (Expr.update true op operand target inner).unplaced) j := by
  obtain ⟨hfirst, hrest⟩ := took_cons.1 htook
  obtain ⟨k, hts, hrest⟩ := took_append.1 hrest
  obtain ⟨hsecond, hus⟩ := took_cons.1 hrest
  have hread : (p.advance >>= fun _ => p.reference >>= fun target => p.eat .byWord >>= fun _ =>
        p.expression >>= fun operand => p.spanFrom i >>= fun span =>
          pure (Expr.update true op operand target span)).Yields i
        (·.unplaced = (Expr.update true op operand target inner).unplaced) j := by
    have hk : p.kindAt k = .byWord := hsecond.kindAt_eq.trans hby
    refine .bind' (yields_advance hfirst) fun _ _ => ?_
    refine .bind' (yields_reference hp htarget hts (by rw [hk]; decide)) fun r hr => ?_
    refine .bind' (yields_eat hsecond hby) fun _ _ => ?_
    refine .bind' (yields_sayable hp hoperand hsay hus (by rw [hj]; decide)) fun a ha => ?_
    refine .bind' (yields_spanFrom i) fun _ _ => .pure' ?_
    simp only [Expr.unplaced, ha, unplaced_eq_of_path hr]
  refine .position ?_
  simp only [factorVerbs, List.mem_cons, List.not_mem_nil, or_false, Prod.mk.injEq] at hverb
  rcases hverb with ⟨rfl, hv⟩ | ⟨rfl, hv⟩
  · simp only [hfirst.kindAt_eq, hv]
    exact hread
  · simp only [hfirst.kindAt_eq, hv]
    exact hread

/-- An assignment begins with no verb of an operation. -/
theorem refuses_arithmeticPhrase (hi : p.kindAt i ∈ [.putWord, .letWord]) :
    (p.arithmeticPhrase true).Refuses i := by
  refine Gives.position ?_
  generalize p.kindAt i = k at hi
  simp only [List.mem_cons, List.not_mem_nil, or_false] at hi
  rcases hi with rfl | rfl <;> exact .fail _

theorem yields_put {value : Expr} {target : Reference} {inner : Span} {verb preposition : Token}
    (hp : p.memoize = false) (hverb : verb.kind = .putWord) (hvalue : Shown value ts)
    (hsay : value.Sayable) (hinto : preposition.kind ∈ [.intoWord, .inWord])
    (htarget : Possessions target.path us)
    (htook : p.Took i (verb :: (ts ++ preposition :: us)) j) (hj : p.kindAt j = .stop) :
    p.assignment.Yields i (·.unplaced = (Expr.assignment target value inner).unplaced) j := by
  obtain ⟨hfirst, hrest⟩ := took_cons.1 htook
  obtain ⟨k, hts, hrest⟩ := took_append.1 hrest
  obtain ⟨hsecond, hus⟩ := took_cons.1 hrest
  have hafter : ∀ kind ∈ [Kind.intoWord, .inWord], kind ∉ afterExpression := by decide
  have hk : p.kindAt k ∉ afterExpression := by
    rw [hsecond.kindAt_eq]
    exact hafter _ hinto
  refine .position (yields_at? (.ite_pos (by rw [hfirst.kindAt_eq, hverb]; rfl) ?_))
  refine .bind' (yields_advance hfirst) fun _ _ => ?_
  refine .bind' (yields_sayable hp hvalue hsay hts hk) fun a ha => ?_
  refine .bind' (yields_eatAny hsecond hinto) fun _ _ => ?_
  refine .bind' (yields_reference hp htarget hus (by rw [hj]; decide)) fun r hr => ?_
  refine .bind' (yields_spanFrom i) fun _ _ => .pure' ?_
  simp only [Expr.unplaced, ha, unplaced_eq_of_path hr]

theorem yields_let {value : Expr} {target : Reference} {inner : Span} {verb copula : Token}
    {particle : List Token} (hp : p.memoize = false) (hverb : verb.kind = .letWord)
    (htarget : Possessions target.path ts) (hcopula : copula.kind ∈ [.isWord, .equalWord])
    (hto : MaybeTo particle) (hvalue : Shown value us) (hsay : value.Sayable)
    (htook : p.Took i (verb :: (ts ++ copula :: (particle ++ us))) j) (hj : p.kindAt j = .stop) :
    p.assignment.Yields i (·.unplaced = (Expr.assignment target value inner).unplaced) j := by
  obtain ⟨hfirst, hrest⟩ := took_cons.1 htook
  obtain ⟨k, hts, hrest⟩ := took_append.1 hrest
  obtain ⟨hsecond, hrest⟩ := took_cons.1 hrest
  obtain ⟨l, hto', hus⟩ := took_append.1 hrest
  have hafter : ∀ kind ∈ [Kind.isWord, .equalWord], kind ∉ afterOperand := by decide
  have hk : p.kindAt k ∉ afterOperand := by
    rw [hsecond.kindAt_eq]
    exact hafter _ hcopula
  refine .position (yields_at? (.ite_neg (by rw [hfirst.kindAt_eq, hverb]; decide) ?_))
  refine .bind' (yields_eat hfirst hverb) fun _ _ => ?_
  refine .bind' (yields_reference hp htarget hts hk) fun r hr => ?_
  refine .bind' (yields_eatAny hsecond hcopula) fun _ _ => ?_
  refine .bind' (yields_maybeTo hto hto' ((startsWith_shown hvalue hsay).kindAt hus)) fun _ _ => ?_
  refine .bind' (yields_sayable hp hvalue hsay hus (by rw [hj]; decide)) fun a ha => ?_
  refine .bind' (yields_spanFrom i) fun _ _ => .pure' ?_
  simp only [Expr.unplaced, ha, unplaced_eq_of_path hr]

theorem yields_result {value : Expr} {span : Span} {opening : List Token} (hp : p.memoize = false)
    (hopening : opening.map Token.kind ∈ [[.resultWord, .isWord], [.returnWord]])
    (hvalue : Shown value ts) (hsay : value.Sayable) (htook : p.Took i (opening ++ ts) j)
    (hj : p.kindAt j = .stop) :
    p.resultStatement.Yields i (·.unplaced = (Stmt.result value span).unplaced) j := by
  obtain ⟨k, hopen, hts⟩ := took_append.1 htook
  have hread : (p.expression >>= fun value => p.spanFrom i >>= fun span =>
      pure (Stmt.result value span)).Yields k
        (·.unplaced = (Stmt.result value span).unplaced) j := by
    refine .bind' (yields_sayable hp hvalue hsay hts (by rw [hj]; decide)) fun a ha => ?_
    refine .bind' (yields_spanFrom i) fun _ _ => .pure' ?_
    simp only [Stmt.unplaced, ha]
  refine .position (yields_at? ?_)
  simp only [List.mem_cons, List.not_mem_nil, or_false] at hopening
  rcases hopening with h | h
  · obtain ⟨t, rest, rfl, ht, hrest⟩ := List.map_eq_cons_iff.1 h
    obtain ⟨u, rfl, hu⟩ := List.map_eq_singleton_iff.1 hrest
    obtain ⟨hone, htwo⟩ := took_cons.1 hopen
    refine .ite_pos (by rw [hone.kindAt_eq, ht]; rfl) (.bind' (yields_advance hone) fun _ _ => ?_)
    exact .bind' (yields_eat htwo hu) fun _ _ => hread
  · obtain ⟨t, rfl, ht⟩ := List.map_eq_singleton_iff.1 h
    refine .ite_neg (by rw [hopen.kindAt_eq, ht]; decide) ?_
    exact .bind' (yields_eat hopen ht) fun _ _ => hread

/-! Sentences. -/

theorem sentence_eq (entry : Entry) (h : Entry.ofKind? (p.kindAt 0) = some entry) :
    p.sentence = p.sentenceOf entry := by
  rw [sentence, h]

/-- A sentence is read as its first word announces. -/
theorem yields_announced {first : Token} {Q : Sentence → Prop} (entry : Entry)
    (htook : p.Took 0 (first :: ts) j) (hentry : Entry.ofKind? first.kind = some entry)
    (h : (p.sentenceOf entry).Yields 0 Q j) : p.sentence.Yields 0 Q j := by
  have hkind : p.kindAt 0 = first.kind := (took_cons.1 htook).1.kindAt_eq
  rwa [sentence_eq entry (hkind ▸ hentry)]

theorem yields_statementSentence {x : Rule Stmt} {s : Stmt} (hx : x.Yields i (·.unplaced = s.unplaced) j) :
    (statementSentence x).Yields i (Sentence.IsLike s) j :=
  .bind' hx fun _ ha => .pure' ha

theorem yields_expressionStatement {x : Rule Expr} {e : Expr} {span : Span}
    (hx : x.Yields i (·.unplaced = e.unplaced) j) :
    (expressionStatement x).Yields i (·.unplaced = (Stmt.expression e span).unplaced) j :=
  .bind' hx fun _ ha => .pure' (by simp only [Stmt.unplaced, ha])

/-- An assignment is read behind the operations, all of which refuse its verb. -/
theorem yields_assignmentSentence {first : Token} {e : Expr} {span : Span}
    (hverb : first.kind ∈ [.putWord, .letWord]) (htook : p.Took 0 (first :: ts) j)
    (hj : p.kindAt j = .stop) (h : p.assignment.Yields 0 (·.unplaced = e.unplaced) j) :
    p.sentence.Yields 0 (Sentence.IsLike (.expression e span)) j := by
  have hverbs : ∀ kind ∈ [Kind.putWord, .letWord], Entry.ofKind? kind = some .expression := by
    decide
  refine yields_announced .expression htook (hverbs _ hverb)
    (yields_statementSentence (yields_expressionStatement ?_))
  refine yields_firstComplete_later (refuses_arithmeticPhrase ?_) (yields_firstComplete h hj)
  rwa [(took_cons.1 htook).1.kindAt_eq]

theorem kindAt_opening {opening : List Token}
    (hopening : opening.map Token.kind ∈ [[.resultWord, .isWord], [.returnWord]])
    (htook : p.Took i (opening ++ ts) j) : p.kindAt i ∈ [.resultWord, .returnWord] := by
  simp only [List.mem_cons, List.not_mem_nil, or_false] at hopening
  have hstart : StartsWith [.resultWord, .returnWord] opening := by
    cases opening with
    | nil => simp at hopening
    | cons t rest =>
      refine ⟨t, rest, rfl, ?_⟩
      rw [List.map_cons] at hopening
      rcases hopening with h | h <;> rw [List.head_eq_of_cons_eq h] <;> decide
  exact (hstart.append ts).kindAt htook

/-- What says a statement without a condition is read as that statement. -/
theorem yields_plain {s : Stmt} (hp : p.memoize = false) (h : Plainly s ts) (hs : s.IsPlain)
    (htook : p.Took 0 ts j) (hj : p.kindAt j = .stop) :
    p.sentence.Yields 0 (Sentence.IsLike s) j := by
  cases h with
  -- a first `the`: variables are tried before units, and units before constants
  | declared hthe hname hverb htype hvalue =>
    refine yields_announced .declaration htook (by rw [hthe]; rfl) (yields_statementSentence ?_)
    refine yields_firstComplete ?_ hj
    exact yields_variable hp hthe hname hverb htype hvalue hs htook hj
  | constant hthe hname hverb he =>
    have hliteral := he.read hs.2
    refine yields_announced .declaration htook (by rw [hthe]; rfl) (yields_statementSentence ?_)
    refine yields_firstComplete_later ?_ (yields_firstComplete_later ?_ (yields_firstComplete ?_ hj))
    · exact refuses_variable hthe hname hverb (startsWith_literal hliteral) htook
    · exact refuses_unit hthe hname hverb hliteral htook hj
    · exact yields_constant hthe hname hverb hliteral hs.1 htook hj
  | unit hthe hname hverb hamount hunit hbase =>
    refine yields_announced .declaration htook (by rw [hthe]; rfl) (yields_statementSentence ?_)
    cases hamount with
    | int hkind hn =>
      have hvalue := Text.readInteger_repr (fitsInteger_of_nonneg hs.2.2)
      rw [← Int.toString_eq_repr, ← hn] at hvalue
      refine yields_firstComplete_later ?_ (yields_firstComplete ?_ hj)
      · exact refuses_variable hthe hname hverb ⟨_, _, rfl, by rw [hkind]; decide⟩ htook
      · exact yields_unit hthe hname hverb hkind hvalue hunit hbase hs.1 hs.2.1 htook
  -- a first `a` or `an`: pointers are tried before both forms of shapes
  | pointer harticle hname hverb hone hpointer hto htype =>
    refine yields_announced .reference htook (by rw [harticle]; rfl) (yields_statementSentence ?_)
    refine yields_firstComplete ?_ hj
    exact yields_pointer harticle hname hverb hone hpointer hto htype hs htook hj
  | shape harticle hname hverb htype =>
    refine yields_announced .reference htook (by rw [harticle]; rfl) (yields_statementSentence ?_)
    refine yields_firstComplete_later ?_ (yields_firstComplete ?_ hj)
    · exact refuses_pointer_is harticle hname hverb htype htook (by rw [hj]; decide)
    · exact yields_shape harticle hname hverb htype htook hj
  | shapeWith harticle hname hverb htype hwith hslots =>
    refine yields_announced .reference htook (by rw [harticle]; rfl) (yields_statementSentence ?_)
    refine yields_firstComplete_later ?_ (yields_firstComplete ?_ hj)
    · exact refuses_pointer_with harticle hname hverb htype hwith htook
    · exact yields_shapeWith harticle hname hverb htype hwith hslots htook hj
  | shapeOf harticle hname hverb hslots =>
    refine yields_announced .reference htook (by rw [harticle]; rfl) (yields_statementSentence ?_)
    refine yields_firstComplete_later ?_ (yields_firstComplete_later ?_ (yields_firstComplete ?_ hj))
    · exact refuses_pointer_has harticle hname hverb htook
    · exact refuses_shape harticle hname hverb htook
    · exact yields_shapeOf harticle hname hverb hslots htook hj
  -- a verb: operations are tried before assignments
  | sum hverb hoperand htarget =>
    have hverbs : ∀ e ∈ sumVerbs, Entry.ofKind? e.2.1 = some .expression := by decide
    refine yields_announced .expression htook (hverbs _ hverb)
      (yields_statementSentence (yields_expressionStatement (yields_firstComplete ?_ hj)))
    exact yields_sumPhrase hp hverb hoperand hs.2 htarget htook hj
  | factor hverb htarget hby hoperand =>
    have hverbs : ∀ e ∈ factorVerbs, Entry.ofKind? e.2 = some .expression := by decide
    refine yields_announced .expression htook (hverbs _ hverb)
      (yields_statementSentence (yields_expressionStatement (yields_firstComplete ?_ hj)))
    exact yields_factorPhrase hp hverb htarget hby hoperand hs.2 htook hj
  | put hverb hvalue hinto htarget =>
    refine yields_assignmentSentence (by rw [hverb]; decide) htook hj ?_
    exact yields_put hp hverb hvalue hs hinto htarget htook hj
  | letBe hverb htarget hcopula hto hvalue =>
    refine yields_assignmentSentence (by rw [hverb]; decide) htook hj ?_
    exact yields_let hp hverb htarget hcopula hto hvalue hs htook hj
  | result hopening hvalue =>
    have hverbs : ∀ kind ∈ [Kind.resultWord, .returnWord], Entry.ofKind? kind = some .result := by
      decide
    rw [sentence_eq .result (hverbs _ (kindAt_opening hopening htook))]
    refine yields_statementSentence (yields_complete ?_ hj)
    exact yields_result hp hopening hvalue hs htook hj

end Phrase

end Prose.Grammar
