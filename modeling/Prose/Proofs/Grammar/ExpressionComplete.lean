import Prose.Proofs.Grammar.LiteralText
import Prose.Proofs.Grammar.Phrasing
import Prose.Proofs.Grammar.Soundness
import Prose.Proofs.Grammar.Yields
import Prose.Proofs.Tree.Unplaced

/- Completeness of expressions. What says a name, a reference or an expression is read
   as that, up to places, wherever it stands, as long as nothing stands behind it that
   would go on with it. The rules take as many words as they can, so for each of them
   it is said which kinds go on with what it reads. -/
namespace Prose.Grammar

open Rule

/-! Literals, as they are shown and as they are read. -/

theorem fitsInteger_of_nonneg {n : Int} (h : 0 ≤ n ∧ n ≤ Text.maxInteger) :
    Text.fitsInteger n = true := by
  simp only [Text.fitsInteger, Bool.and_eq_true, decide_eq_true_eq]
  have hmin : Text.minInteger ≤ 0 := by decide
  exact ⟨Int.le_trans hmin h.1, h.2⟩

theorem LiteralShown.isLiteral {e : Expr} {ts : List Token} (h : LiteralShown e ts)
    (he : e.IsCombined) : e.IsLiteral := by
  cases h <;> exact he

theorem LiteralShown.read {e : Expr} {ts : List Token} (h : LiteralShown e ts) (he : e.IsLiteral) :
    LiteralRead e ts := by
  cases h with
  | int h hn => exact .int h (hn ▸ Text.readInteger_repr (fitsInteger_of_nonneg he))
  | inches h hn hu => exact .inches h (hn ▸ Text.readInteger_repr (fitsInteger_of_nonneg he)) hu
  | text h hs =>
    rw [← unquote_quoted he, ← hs]
    exact .text h
  | bytes h hbs =>
    refine .bytes h ?_
    rw [hbs, String.toList_append]
    show Text.readBytes (String.ofList _).toList = _
    rw [String.toList_ofList]
    exact Text.readBytes_showByte _
  | ratio h hnd => exact .ratio h (hnd ▸ readRatio_repr he.1 he.2)
  | null h => exact .null h

/-- Operands of which the literals are such that they can be read. -/
abbrev Legible : Expr → List Token → Prop := Operand LiteralRead Possessions

theorem legible_of_shown {e : Expr} {ts : List Token} (h : Shown e ts) (he : e.IsCombined) :
    e.Worded Legible ts := by
  induction h with
  | operand h =>
    refine .operand ?_
    cases h with
    | literal h => exact .literal (h.read (h.isLiteral he))
    | slot h hapostrophe hname => exact .slot (h.read he.2) hapostrophe hname
    | reference h => exact .reference h
  | math _ hop _ ihfirst ihsecond => exact .math (ihfirst he.1) hop (ihsecond he.2)
  | comparison _ hop _ ihfirst ihsecond => exact .comparison (ihfirst he.2.1) hop (ihsecond he.2.2)

/-! Kinds that go on with what is read. -/

/-- Kinds that go on with an operand. -/
def afterOperand : List Kind := [.identifier, .possessive, .ofWord, .inchWord]

/-- Kinds that go on with a product. -/
def afterProduct : List Kind := [.multipliedWord, .dividedWord] ++ afterOperand

/-- Kinds that go on with a sum. -/
def afterSum : List Kind := [.plusWord, .minusWord] ++ afterProduct

/-- Kinds with which a comparison begins. -/
def comparisonStarts : List Kind :=
  [.isWord, .equalWord, .smallerWord, .lessWord, .greaterWord, .biggerWord, .atWord]

/-- Kinds that go on with an expression. -/
def afterExpression : List Kind := comparisonStarts ++ afterSum

/-- Kinds with which an operand may begin. -/
def operandStarts : List Kind :=
  articles ++ [.intLiteral, .stringLiteral, .byteArrayLiteral, .ratioLiteral, .nullWord]

/-- The first of some tokens is of one of the kinds. -/
def StartsWith (kinds : List Kind) (ts : List Token) : Prop :=
  ∃ t us, ts = t :: us ∧ t.kind ∈ kinds

theorem StartsWith.append {kinds : List Kind} {ts : List Token} (h : StartsWith kinds ts)
    (us : List Token) : StartsWith kinds (ts ++ us) := by
  obtain ⟨t, vs, rfl, ht⟩ := h
  exact ⟨t, vs ++ us, rfl, ht⟩

theorem StartsWith.ne_nil {kinds : List Kind} {ts : List Token} (h : StartsWith kinds ts) :
    ts ≠ [] := by
  obtain ⟨t, us, rfl, -⟩ := h
  exact List.cons_ne_nil t us

theorem StartsWith.kindAt {p : Phrase} {i j : Nat} {kinds : List Kind} {ts : List Token}
    (h : StartsWith kinds ts) (htook : p.Took i ts j) : p.kindAt i ∈ kinds := by
  obtain ⟨t, us, rfl, ht⟩ := h
  rw [(Phrase.took_cons.1 htook).1.kindAt_eq]
  exact ht

theorem startsWith_possessions {path : List String} {ts : List Token} (h : Possessions path ts) :
    StartsWith articles ts := by
  induction h with
  | name h => exact ⟨_, _, rfl, h⟩
  | slot _ _ _ _ ih => exact ih.append _

theorem startsWith_literal {e : Expr} {ts : List Token} (h : LiteralRead e ts) :
    StartsWith [.intLiteral, .stringLiteral, .byteArrayLiteral, .ratioLiteral, .nullWord] ts := by
  cases h with
  | int h => exact ⟨_, _, rfl, by rw [h]; decide⟩
  | inches h => exact ⟨_, _, rfl, by rw [h]; decide⟩
  | text h => exact ⟨_, _, rfl, by rw [h]; decide⟩
  | bytes h => exact ⟨_, _, rfl, by rw [h]; decide⟩
  | ratio h => exact ⟨_, _, rfl, by rw [h]; decide⟩
  | null h => exact ⟨_, _, rfl, by rw [h]; decide⟩

theorem startsWith_words {name : String} {ts : List Token} (h : Words name ts) :
    StartsWith [.identifier] ts := by
  obtain ⟨hne, hkinds, -⟩ := h
  cases ts with
  | nil => exact absurd rfl hne
  | cons t ts => exact ⟨t, ts, rfl, List.mem_singleton.2 (hkinds t List.mem_cons_self)⟩

theorem startsWith_operand {e : Expr} {ts : List Token} (h : Legible e ts) :
    StartsWith operandStarts ts := by
  have hliteral {e ts} (h : LiteralRead e ts) : StartsWith operandStarts ts := by
    obtain ⟨t, us, rfl, ht⟩ := startsWith_literal h
    exact ⟨t, us, rfl, List.mem_append_right _ ht⟩
  cases h with
  | literal h => exact hliteral h
  | slot h => exact (hliteral h).append _
  | reference h =>
    obtain ⟨t, us, rfl, ht⟩ := startsWith_possessions h
    exact ⟨t, us, rfl, List.mem_append_left _ ht⟩

theorem startsWith_expression {e : Expr} {ts : List Token} (h : e.Worded Legible ts) :
    StartsWith operandStarts ts := by
  induction h with
  | operand h => exact startsWith_operand h
  | math _ _ _ ih => exact ih.append _
  | comparison _ _ _ ih => exact ih.append _

namespace Phrase

variable {p : Phrase} {i j k : Nat} {ts : List Token} {e : Expr}

/-! References. -/

/-- An article before a name is passed, if there is one. -/
theorem yields_skipArticle {article : List Token} (h : MaybeArticle article)
    (htook : p.Took i article j) (hj : p.kindAt j = .identifier) :
    (p.skipAny articles).Yields i (fun _ => True) j := by
  rcases h with rfl | ⟨kind, hmem, hphrase⟩
  · obtain rfl : j = i := htook.2
    exact yields_skipNone (by rw [hj]; decide)
  · obtain ⟨a, rfl, ha⟩ := List.map_eq_singleton_iff.1 hphrase
    exact yields_skipAny htook (ha ▸ hmem)

/-- Reading from `i` on comes to the loop of possessives at `j`, with some names read and
    not more steps of the loop done than tokens taken. -/
def Possessed (p : Phrase) (i : Nat) (path : List String) (j : Nat) : Prop :=
  ∀ s, s.pos = i → ∃ n r t, n ≤ j - i ∧ r.path = path ∧ t.pos = j ∧ ∀ fuel,
    (p.eatAny articles "'a', 'an' or 'the'" >>= fun _ => p.longName >>= fun name =>
      p.spanFrom i >>= fun span => p.possessions i (fuel + n) (.plain name.1 span)) s =
    p.possessions i fuel r t

/-- One more step of the loop, over an apostrophe and the name behind it. -/
theorem possessions_slot {us article : List Token} {names : List String} {name : String}
    {apostrophe : Token} {r : Reference} {t : Progress} {k l : Nat} (hr : r.path = names)
    (ht : t.pos = k) (hone : p.Took k [apostrophe] (k + 1))
    (hapostrophe : apostrophe.kind = .possessive)
    (hmaybe : MaybeArticle article) (harticle : p.Took (k + 1) article l) (hname : Words name us)
    (hwords : p.Took l us j) (hj : p.kindAt j ≠ .identifier) :
    ∃ r' t', r'.path = names ++ [name] ∧ t'.pos = j ∧ ∀ fuel,
      p.possessions i (fuel + 1) r t = p.possessions i fuel r' t' := by
  have hkind : p.kindAt k = .possessive := hone.kindAt_eq.trans hapostrophe
  have hskip := yields_skipArticle hmaybe harticle
    (List.mem_singleton.1 ((startsWith_words hname).kindAt hwords))
  obtain ⟨a, u, ha, -, hu⟩ := yields_advance hone t ht
  obtain ⟨b, v, hb, -, hv⟩ := hskip u hu
  obtain ⟨name', w, hname', hn', hw⟩ := yields_longName hwords hname hj v hv
  obtain ⟨span, x, hspan, -, hx⟩ := yields_spanFrom i w hw
  refine ⟨⟨name'.1, span, r.toOwner :: r.owners⟩, x, ?_, hx, fun fuel => ?_⟩
  · rw [path_slot, hr, hn']
  · have hat : p.at? .possessive t = (some true, t) := by
      rw [at?, ht, hkind]
      rfl
    have hpos : position t = (some t.pos, t) := rfl
    rw [possessions, bind_some hat, if_pos rfl, bind_some hpos, bind_some ha, bind_some hb,
      bind_some outcome_eq, hname']
    exact bind_some hspan

theorem possessed_of_possessions {path : List String} (h : Possessions path ts)
    (htook : p.Took i ts j) (hj : p.kindAt j ≠ .identifier) : p.Possessed i path j := by
  -- on how the names are said; the names before the last apostrophe end at that apostrophe
  induction h generalizing j with
  | name harticle hname =>
    intro s hs
    obtain ⟨htake, hwords⟩ := took_cons.1 htook
    have heat : (p.eatAny articles "'a', 'an' or 'the'").Yields i _ _ := yields_eatAny htake harticle
    obtain ⟨a, t, ha, -, ht⟩ := heat s hs
    obtain ⟨name, u, hname', hn, hu⟩ := yields_longName hwords hname hj t ht
    obtain ⟨span, v, hspan, -, hv⟩ := yields_spanFrom i u hu
    refine ⟨0, .plain name.1 span, v, Nat.zero_le _, ?_, hv, fun fuel => ?_⟩
    · rw [path_plain, hn]
    · rw [bind_some ha, bind_some hname', bind_some hspan]
      rfl
  | slot _ hapostrophe hmaybe hname ih =>
    intro s hs
    obtain ⟨k, htake, hrest⟩ := took_append.1 htook
    obtain ⟨hone, hrest⟩ := took_cons.1 hrest
    obtain ⟨l, harticle, hwords⟩ := took_append.1 hrest
    have hkind : p.kindAt k = .possessive := hone.kindAt_eq.trans hapostrophe
    obtain ⟨n, r, t, hn, hr, ht, hloop⟩ := ih htake (by rw [hkind]; decide) s hs
    obtain ⟨r', t', hr', ht', hstep⟩ :=
      possessions_slot hr ht hone hapostrophe hmaybe harticle hname hwords hj
    refine ⟨n + 1, r', t', ?_, hr', ht', fun fuel => ?_⟩
    · -- the apostrophe alone pays for the step
      have hlt := (htake.append hone).lt_and_le (by simp)
      have hle : k + 1 ≤ j := by rw [hwords.2, harticle.2]; omega
      omega
    · rw [← hstep, ← hloop, show fuel + (n + 1) = fuel + 1 + n by omega]

/-- Where a name with its possessives ends, an owner behind an `of` is looked for. -/
theorem yields_ownedName {path : List String} {owner : Rule Reference} {Q : Reference → Prop}
    (h : Possessions path ts) (htook : p.Took i ts j) (hname : p.kindAt j ≠ .identifier)
    (hpossessive : p.kindAt j ≠ .possessive)
    (howner : ∀ r, r.path = path → (p.ownership owner r).Yields j Q k) :
    (p.ownedName owner).Yields i Q k := by
  intro s hs
  obtain ⟨n, r, t, hn, hr, ht, hloop⟩ := possessed_of_possessions h htook hname s hs
  have hsize : p.size - n + n = p.size := by
    have hle := (htook.lt_and_le (startsWith_possessions h).ne_nil).2
    omega
  -- the loop has steps left, but nothing that goes on with the reference
  have hstop : p.possessions i (p.size - n) r t = (some r, t) := by
    cases p.size - n with
    | zero => rfl
    | succ fuel =>
      have hat : p.at? .possessive t = (some false, t) := by
        rw [at?, ht, beq_false_of_ne hpossessive]
      rw [possessions, bind_some hat]
      rfl
  have hpos : position s = (some i, s) := by rw [← hs]; rfl
  have hloop := hloop (p.size - n)
  rw [hsize, hstop] at hloop
  obtain ⟨r', u, hu, hQ⟩ := howner r hr t ht
  refine ⟨r', u, ?_, hQ⟩
  rw [ownedName, bind_some hpos]
  simp only [← bind_assoc] at hloop ⊢
  rw [bind_some hloop]
  exact hu

/-- Without an `of` there is no owner to look for. -/
theorem yields_unowned {path : List String} {r : Reference} (owner : Rule Reference)
    (hr : r.path = path) (hof : p.kindAt j ≠ .ofWord) :
    (p.ownership owner r).Yields j (·.path = path) j := by
  refine .position (.ite_neg ?_ (.pure' hr))
  rw [beq_false_of_ne hof]
  exact Bool.false_ne_true

/-- A reference without an `of` is read up to the first token that would go on with it. -/
theorem yields_possessions {path : List String} (hp : p.memoize = false) (room : Nat)
    (h : Possessions path ts) (htook : p.Took i ts j) (hj : p.kindAt j ∉ afterOperand) :
    (p.referenceWithin room).Yields i (·.path = path) j := by
  have hyields (owner : Rule Reference) : (p.ownedName owner).Yields i (·.path = path) j :=
    yields_ownedName h htook (fun h => hj (h ▸ by decide)) (fun h => hj (h ▸ by decide))
      fun r hr => yields_unowned owner hr fun h => hj (h ▸ by decide)
  cases room with
  | zero =>
    rw [referenceWithin, keptReference_eq hp]
    exact (hyields _).attempt
  | succ room =>
    rw [referenceWithin, keptReference_eq hp]
    exact (hyields _).attempt

theorem yields_reference {path : List String} (hp : p.memoize = false) (h : Possessions path ts)
    (htook : p.Took i ts j) (hj : p.kindAt j ∉ afterOperand) :
    p.reference.Yields i (·.path = path) j :=
  yields_possessions hp p.room h htook hj

/-- Without an article there is no reference. -/
theorem refuses_reference (hp : p.memoize = false) (hi : p.kindAt i ∉ articles) :
    p.reference.Refuses i := by
  have howned (owner : Rule Reference) : (p.ownedName owner).Refuses i :=
    Gives.position (refuses_eatAny hi).bind'
  rw [reference]
  cases p.room with
  | zero =>
    rw [referenceWithin, keptReference_eq hp]
    exact Gives.attempt (howned _)
  | succ room =>
    rw [referenceWithin, keptReference_eq hp]
    exact Gives.attempt (howned _)

/-! Operands. -/

theorem yields_literal (h : LiteralRead e ts) (htook : p.Took i ts j)
    (hj : p.kindAt j ≠ .inchWord) : p.literal.Yields i (·.unplaced = e.unplaced) j := by
  unfold literal
  refine .position ?_
  cases h with
  | int h hn =>
    simp only [htook.tokenAt_eq, h, hn]
    refine .bind' (yields_advance htook) fun _ _ => yields_at? (.ite_neg ?_ (.pure' rfl))
    exact fun hk => hj (eq_of_beq hk)
  | inches h hn hu =>
    obtain ⟨htake, hinch⟩ := took_cons.1 htook
    simp only [htake.tokenAt_eq, h, hn]
    refine .bind' (yields_advance htake) fun _ _ => yields_at? (.ite_pos ?_ ?_)
    · rw [hinch.kindAt_eq, hu]
      rfl
    · exact .bind' (yields_advance hinch) fun _ _ => .pure' rfl
  | text h =>
    simp only [htook.tokenAt_eq, h]
    exact .bind' (yields_advance htook) fun _ _ => .pure' rfl
  | bytes h hbs =>
    simp only [htook.tokenAt_eq, h, hbs]
    exact .bind' (yields_advance htook) fun _ _ => .pure' rfl
  | ratio h hnd =>
    simp only [htook.tokenAt_eq, h, hnd]
    exact .bind' (yields_advance htook) fun _ _ => .pure' rfl
  | null h =>
    simp only [htook.tokenAt_eq, h]
    exact .bind' (yields_advance htook) fun _ _ => .pure' rfl

/-- References with the same names are the same up to places. -/
theorem unplaced_eq_of_path {r r' : Reference} (h : r.path = r'.path) : r.unplaced = r'.unplaced := by
  obtain ⟨howners, hname⟩ := List.append_inj' h rfl
  have hnames := List.reverse_inj.1 howners
  have hmap (os : List Owner) : os.map (fun o => (⟨o.name, .zero⟩ : Owner)) =
      (os.map Owner.name).map fun name => ⟨name, .zero⟩ := by
    rw [List.map_map]
    rfl
  simp only [Reference.unplaced, hmap, hnames, List.head_eq_of_cons_eq hname]

theorem yields_literalOrSlot (h : Legible e ts) (htook : p.Took i ts j)
    (hj : p.kindAt j ∉ afterOperand) (hi : p.kindAt i ∉ articles) :
    p.literalOrSlot.Yields i (·.unplaced = e.unplaced) j := by
  cases h with
  | literal h =>
    have hpossessive : p.kindAt j ≠ .possessive := fun h => hj (h ▸ by decide)
    refine .position (.bind' (yields_literal h htook fun h => hj (h ▸ by decide)) fun a ha => ?_)
    refine .position (.ite_neg ?_ (.pure' ha))
    rw [beq_false_of_ne hpossessive]
    exact Bool.false_ne_true
  | slot h hapostrophe hname =>
    obtain ⟨k, htake, hrest⟩ := took_append.1 htook
    obtain ⟨hone, hwords⟩ := took_cons.1 hrest
    have hkind : p.kindAt k = .possessive := hone.kindAt_eq.trans hapostrophe
    have hword : p.kindAt (k + 1) = .identifier :=
      List.mem_singleton.1 ((startsWith_words hname).kindAt hwords)
    have hend : p.kindAt j ≠ .identifier := fun h => hj (h ▸ by decide)
    refine .position (.bind' (yields_literal h htake (by rw [hkind]; decide)) fun a ha => ?_)
    refine .position (.ite_pos (by rw [hkind, hword]; rfl) ?_)
    refine .bind' (yields_advance hone) fun _ _ => .bind' (yields_longName hwords hname hend) ?_
    intro name hname
    obtain rfl := hname
    refine .bind' (yields_spanFrom i) fun _ _ => .pure' ?_
    simp only [Expr.unplaced, ha]
    rfl
  | reference h => exact absurd ((startsWith_possessions h).kindAt htook) hi

/-- An operand is read up to the first token that would go on with it. -/
theorem yields_primary (hp : p.memoize = false) (h : Legible e ts) (htook : p.Took i ts j)
    (hj : p.kindAt j ∉ afterOperand) : p.primary.Yields i (·.unplaced = e.unplaced) j := by
  have hliteral (hstart : StartsWith
      [.intLiteral, .stringLiteral, .byteArrayLiteral, .ratioLiteral, .nullWord] ts) :
      p.primary.Yields i (·.unplaced = e.unplaced) j := by
    have hkinds : ∀ k ∈ [Kind.intLiteral, .stringLiteral, .byteArrayLiteral, .ratioLiteral,
      .nullWord], k ∉ articles := by decide
    have hi := hkinds _ (hstart.kindAt htook)
    obtain ⟨x, hx⟩ := referenceWithin_eq_attempt hp p.room
    have hrefuses := refuses_reference hp hi
    rw [reference, hx] at hrefuses
    rw [primary, reference, hx]
    exact .outcome_refused hrefuses (yields_literalOrSlot h htook hj hi)
  cases h with
  | literal h => exact hliteral (startsWith_literal h)
  | slot h => exact hliteral ((startsWith_literal h).append _)
  | reference h =>
    refine .outcome (yields_reference hp h htook hj) fun r hr => .pure' ?_
    simp only [Expr.unplaced, unplaced_eq_of_path hr]

/-! Operations. -/

/-- Reading from `i` on comes to the loop of operations at `j`, with an expression read
    and not more steps of the loop done than tokens taken. -/
def Chained (operator : Nat → Option (MathOp × Nat)) (operand : Rule Expr) (i : Nat) (e : Expr)
    (j : Nat) : Prop :=
  ∀ s, s.pos = i → ∃ n a t, n ≤ j - i ∧ a.unplaced = e.unplaced ∧ t.pos = j ∧ ∀ fuel,
    (operand >>= joined operator operand (fuel + n)) s = joined operator operand fuel a t

variable {operator : Nat → Option (MathOp × Nat)} {operand : Rule Expr}

theorem chained_operand (h : operand.Yields i (·.unplaced = e.unplaced) j) :
    Chained operator operand i e j := by
  intro s hs
  obtain ⟨a, t, ha, he, ht⟩ := h s hs
  exact ⟨0, a, t, Nat.zero_le _, he, ht, fun fuel => bind_some ha⟩

/-- One more step of the loop. -/
theorem Chained.math {op : MathOp} {first second : Expr} {span : Span} {k n : Nat} (hi : i ≤ k)
    (hj : k < j) (h : Chained operator operand i first k) (hop : operator k = some (op, n))
    (hsecond : operand.Yields (k + n) (·.unplaced = second.unplaced) j) :
    Chained operator operand i (.math op first second span) j := by
  intro s hs
  obtain ⟨m, a, t, hm, ha, ht, hloop⟩ := h s hs
  obtain ⟨b, u, hb, hb', hu⟩ := hsecond (t.moved (k + n)) rfl
  refine ⟨m + 1, mathExpr op a b, u, by omega, ?_, hu, fun fuel => ?_⟩
  · simp only [mathExpr, Expr.unplaced, ha, hb']
  · have hpos : position t = (some k, t) := by rw [← ht]; rfl
    have hmove : moveTo (k + n) t = (some (), t.moved (k + n)) := rfl
    rw [show fuel + (m + 1) = fuel + 1 + m by omega, hloop, joined, bind_some hpos]
    simp only [hop]
    rw [bind_some hmove, bind_some outcome_eq, hb]

/-- The loop ends where there is no operation. -/
theorem Chained.yields (h : Chained operator operand i e j) (hj : j ≤ p.size)
    (hop : operator j = none) :
    (operand >>= joined operator operand p.size).Yields i (·.unplaced = e.unplaced) j := by
  intro s hs
  obtain ⟨n, a, t, hn, ha, ht, hloop⟩ := h s hs
  refine ⟨a, t, ?_, ha, ht⟩
  have hloop := hloop (p.size - n)
  rw [show p.size - n + n = p.size by omega] at hloop
  rw [hloop]
  cases p.size - n with
  | zero => rfl
  | succ fuel =>
    have hpos : position t = (some j, t) := by rw [← ht]; rfl
    rw [joined, bind_some hpos]
    simp only [hop]
    rfl

theorem factorOperator_eq {op : MathOp} {os : List Token} (htook : p.Took i os j)
    (hphrase : Says op.words os) (hop : op.isFactor = true) : p.factorOperator i = some (op, 2) := by
  cases op with
  | plus | minus => exact absurd hop Bool.false_ne_true
  | multiply | divide =>
    obtain ⟨t, us, rfl, ht, hus⟩ := List.map_eq_cons_iff.1 hphrase
    obtain ⟨u, rfl, hu⟩ := List.map_eq_singleton_iff.1 hus
    obtain ⟨hone, htwo⟩ := took_cons.1 htook
    simp only [factorOperator, hone.kindAt_eq, htwo.kindAt_eq, ht, hu]

theorem termOperator_eq {op : MathOp} {os : List Token} (htook : p.Took i os j)
    (hphrase : Says op.words os) (hop : op.isFactor = false) : p.termOperator i = some (op, 1) := by
  cases op with
  | multiply | divide => exact absurd hop.symm Bool.false_ne_true
  | plus | minus =>
    obtain ⟨t, rfl, ht⟩ := List.map_eq_singleton_iff.1 hphrase
    simp only [termOperator, htook.kindAt_eq, ht]

theorem factorOperator_none (h : p.kindAt i ∉ afterProduct) : p.factorOperator i = none := by
  unfold factorOperator
  split
  · next hk _ => exact absurd (hk ▸ by decide) h
  · next hk _ => exact absurd (hk ▸ by decide) h
  · rfl

theorem termOperator_none (h : p.kindAt i ∉ afterSum) : p.termOperator i = none := by
  unfold termOperator
  split
  · next hk => exact absurd (hk ▸ by decide) h
  · next hk => exact absurd (hk ▸ by decide) h
  · rfl

/-- Behind what is to the left of an operation stands the first word of it. -/
theorem kindAt_phrase {op : MathOp} {os : List Token} (htook : p.Took i os j)
    (hphrase : Says op.words os) : p.kindAt i ∈ op.words.take 1 ∧ j = i + op.words.length := by
  have hlength : os.length = op.words.length := by rw [← hphrase, List.length_map]
  refine ⟨?_, by rw [htook.2, hlength]⟩
  have hstart : StartsWith (op.words.take 1) os := by
    cases os with
    | nil => cases op <;> cases hphrase
    | cons t os =>
      refine ⟨t, os, rfl, ?_⟩
      rw [← hphrase]
      exact List.mem_singleton_self _
  exact hstart.kindAt htook

theorem chained_term (hp : p.memoize = false) (hword : e.Worded Legible ts) (harith : e.Arithmetic)
    (hsum : e.isSum = false) (htook : p.Took i ts j) (hj : p.kindAt j ∉ afterOperand) :
    Chained p.factorOperator p.primary i e j := by
  -- on the words of the product; its left side ends at the operator, its right side is an operand
  induction hword generalizing j with
  | operand h => exact chained_operand (yields_primary hp h htook hj)
  | comparison => exact harith.elim
  | @math op first second span us os vs hfirst hop hsecond ih =>
    have hfactor : op.isFactor = true := by simpa [Expr.isSum] using hsum
    obtain ⟨hleft, hright, hgroup⟩ := harith
    rw [if_pos hfactor] at hgroup
    obtain ⟨k, hus, hrest⟩ := took_append.1 htook
    obtain ⟨l, hos, hvs⟩ := took_append.1 hrest
    obtain ⟨hkind, hl⟩ := kindAt_phrase hos hop
    have hafter : p.kindAt k ∉ afterOperand := by
      have hwords : ∀ op : MathOp, ∀ kind ∈ op.words.take 1, kind ∉ afterOperand := by
        rintro (_ | _ | _ | _) <;> decide
      exact hwords op _ hkind
    have hlength : op.words.length = 2 := by cases op <;> first | rfl | cases hfactor
    cases hsecond with
    | operand h =>
      have hsecond := yields_primary hp h hvs hj
      rw [hl, hlength] at hsecond
      have hlt := (hvs.lt_and_le (startsWith_operand h).ne_nil).1
      exact (ih hleft hgroup.1 hus hafter).math (Nat.le.intro hus.2.symm) (by omega)
        (factorOperator_eq hos hop hfactor) hsecond
    | math => exact absurd hgroup.2 (by simp [Expr.isMath])
    | comparison => exact hright.elim

/-- A product is read up to the first token that would go on with it. -/
theorem yields_term (hp : p.memoize = false) (hword : e.Worded Legible ts) (harith : e.Arithmetic)
    (hsum : e.isSum = false) (htook : p.Took i ts j) (hj : p.kindAt j ∉ afterProduct) :
    p.term.Yields i (·.unplaced = e.unplaced) j := by
  have hchain := chained_term hp hword harith hsum htook fun h => hj (List.mem_append_right _ h)
  have hsize := (htook.lt_and_le (startsWith_expression hword).ne_nil).2
  exact hchain.yields hsize (factorOperator_none hj)

theorem chained_arithmetic (hp : p.memoize = false) (hword : e.Worded Legible ts)
    (harith : e.Arithmetic) (htook : p.Took i ts j) (hj : p.kindAt j ∉ afterProduct) :
    Chained p.termOperator p.term i e j := by
  induction hword generalizing j with
  | operand h =>
    refine chained_operand (yields_term hp (.operand h) harith ?_ htook hj)
    cases h with
    | literal h => cases h <;> rfl
    | slot => rfl
    | reference => rfl
  | comparison => exact harith.elim
  | @math op first second span us os vs hfirst hop hsecond ih =>
    cases hfactor : op.isFactor with
    | true =>
      -- a product is one operand of the sum
      refine chained_operand (yields_term hp (.math hfirst hop hsecond) harith ?_ htook hj)
      rw [Expr.isSum, hfactor]
      rfl
    | false =>
      obtain ⟨hleft, hright, hgroup⟩ := harith
      rw [if_neg (by rw [hfactor]; exact Bool.false_ne_true)] at hgroup
      obtain ⟨k, hus, hrest⟩ := took_append.1 htook
      obtain ⟨l, hos, hvs⟩ := took_append.1 hrest
      obtain ⟨hkind, hl⟩ := kindAt_phrase hos hop
      have hafter : p.kindAt k ∉ afterProduct := by
        have hwords : ∀ op : MathOp, op.isFactor = false → ∀ kind ∈ op.words.take 1,
            kind ∉ afterProduct := by
          rintro (_ | _ | _ | _) <;> decide
        exact hwords op hfactor _ hkind
      have hlength : op.words.length = 1 := by cases op <;> first | rfl | cases hfactor
      have hsecond' := yields_term hp hsecond hright hgroup hvs hj
      rw [hl, hlength] at hsecond'
      have hlt := (hvs.lt_and_le (startsWith_expression hsecond).ne_nil).1
      exact (ih hleft hus hafter).math (Nat.le.intro hus.2.symm) (by omega)
        (termOperator_eq hos hop hfactor) hsecond'

/-- A sum is read up to the first token that would go on with it. -/
theorem yields_arithmetic (hp : p.memoize = false) (hword : e.Worded Legible ts)
    (harith : e.Arithmetic) (htook : p.Took i ts j) (hj : p.kindAt j ∉ afterSum) :
    p.arithmetic.Yields i (·.unplaced = e.unplaced) j := by
  have hchain := chained_arithmetic hp hword harith htook fun h => hj (List.mem_append_right _ h)
  have hsize := (htook.lt_and_le (startsWith_expression hword).ne_nil).2
  rw [arithmetic, keptExpression_eq hp]
  exact (hchain.yields hsize (termOperator_none hj)).attempt

/-! Comparisons. -/

theorem Took.stands (h : p.Took i ts j) : p.Stands i (ts.map Token.kind) := by
  intro m hm
  obtain ⟨hpre, -⟩ := h
  have hm' : m < ts.length := by rwa [List.length_map] at hm
  have hget := hpre.getElem hm'
  have hlt : i + m < p.tokens.length := by
    have hle := hpre.length_le
    rw [List.length_drop] at hle
    omega
  rw [List.getElem_drop] at hget
  rw [kindAt, tokenAt, List.getElem?_eq_getElem hlt, List.getElem_map, hget]
  rfl

/-- Of two phrases that stand from one index on, the shorter one begins the longer one. -/
theorem Stands.prefix_of_le {kinds kinds' : List Kind} (h : p.Stands i kinds)
    (h' : p.Stands i kinds') (hle : kinds.length ≤ kinds'.length) : kinds <+: kinds' := by
  refine List.prefix_iff_getElem.2 ⟨hle, fun m hm => ?_⟩
  rw [← h m hm, ← h' m (Nat.lt_of_lt_of_le hm hle)]

/-- A comparison phrase stands before its own beginnings. -/
theorem comparisons_pairwise : comparisons.Pairwise fun e e' => ¬e.1 <+: e'.1 := by decide

/-- No operand begins with a word of a comparison phrase. -/
theorem comparisons_disjoint : ∀ e ∈ comparisons, ∀ k ∈ e.1, k ∉ operandStarts := by decide

theorem Stands.comparisonStarts {kinds : List Kind} {op : Comparison} (h : p.Stands i kinds)
    (hop : (kinds, op) ∈ comparisons) : p.kindAt i ∈ comparisonStarts := by
  have hstarts : ∀ e ∈ comparisons, ∃ k ∈ Grammar.comparisonStarts, e.1.head? = some k := by decide
  obtain ⟨k, hk, hhead⟩ := hstarts _ hop
  cases kinds with
  | nil => cases hhead
  | cons kind kinds =>
    obtain rfl := Option.some.inj hhead
    exact (h 0 (Nat.succ_pos _)).symm ▸ hk

/-- The comparison is found whose phrase stands before an operand. A longer phrase would have to
    go on with the operand, and the beginnings of the phrase are not tried before it. -/
theorem find?_comparison {op : Comparison} {kinds : List Kind} (hop : (kinds, op) ∈ comparisons)
    (hstands : p.Stands i kinds) (hj : p.kindAt (i + kinds.length) ∈ operandStarts) :
    (comparisons.find? fun entry =>
      entry.1.zipIdx.all fun (kind, m) => p.kindAt (i + m) == kind) = some (kinds, op) := by
  cases hfound : comparisons.find? fun entry =>
    entry.1.zipIdx.all fun (kind, m) => p.kindAt (i + m) == kind with
  | none => exact absurd (stands_iff.2 hstands) (List.find?_eq_none.1 hfound _ hop)
  | some entry =>
    obtain ⟨hentry, before, after, hsplit, hbefore⟩ := List.find?_eq_some_iff_append.1 hfound
    have hentry' := stands_iff.1 hentry
    have hin : entry ∈ comparisons := by
      rw [hsplit]
      exact List.mem_append_right _ List.mem_cons_self
    -- the phrase was tried before the one that was found, or is that one, or comes later
    rw [hsplit] at hop
    rcases List.mem_append.1 hop with hmem | hmem
    · have hno := hbefore _ hmem
      rw [stands_iff.2 hstands] at hno
      exact absurd hno Bool.false_ne_true
    · rcases List.mem_cons.1 hmem with rfl | hmem
      · rfl
      · exfalso
        have hpair := comparisons_pairwise
        rw [hsplit] at hpair
        have hnot := List.rel_of_pairwise_cons (List.pairwise_append.1 hpair).2.1 hmem
        have hlt : kinds.length < entry.1.length :=
          Nat.lt_of_not_le fun hle => hnot (hentry'.prefix_of_le hstands hle)
        have hnext : p.kindAt (i + kinds.length) = entry.1[kinds.length] := hentry' _ hlt
        exact comparisons_disjoint entry hin _ (List.getElem_mem hlt) (hnext ▸ hj)

/-- The comparison is read whose phrase stands before an operand. -/
theorem yields_comparison {op : Comparison} {os : List Token}
    (hop : (os.map Token.kind, op) ∈ comparisons) (htook : p.Took i os j)
    (hj : p.kindAt j ∈ operandStarts) : p.comparison.Yields i (· = op) j := by
  have hlength : i + (os.map Token.kind).length = j := by rw [List.length_map, htook.2]
  have hfind := find?_comparison hop htook.stands (hlength.symm ▸ hj)
  refine .position ?_
  simp only [hfind, hlength]
  exact .moveTo (.pure' rfl)

/-- Without the first word of a comparison there is none. -/
theorem refuses_comparison (hi : p.kindAt i ∉ comparisonStarts) : p.comparison.Refuses i := by
  refine Gives.position ?_
  simp only
  split
  · next kinds op hfound =>
    have hentry := List.find?_some hfound
    exact absurd ((stands_iff.1 hentry).comparisonStarts (List.mem_of_find?_eq_some hfound)) hi
  · exact .fail _

/-- An expression is read up to the first token that would go on with it. -/
theorem yields_expression (hp : p.memoize = false) (hword : e.Worded Legible ts)
    (he : e.Canonical) (htook : p.Took i ts j) (hj : p.kindAt j ∉ afterExpression) :
    p.expression.Yields i (·.unplaced = e.unplaced) j := by
  rw [expression, keptExpression_eq hp]
  -- the comparison is tried first, and must fail where none is meant
  have hsum : p.kindAt j ∉ afterSum := fun h => hj (List.mem_append_right _ h)
  have hbare (harith : e.Arithmetic) :
      (firstOf [p.compared, p.arithmetic]).Yields i (·.unplaced = e.unplaced) j := by
    have hyields := yields_arithmetic hp hword harith htook hsum
    refine .firstOf_later ?_ (.firstOf_cons hyields)
    exact hyields.refuses fun _ _ =>
      (refuses_comparison fun h => hj (List.mem_append_left _ h)).bind'
  refine .attempt ?_
  cases hword with
  | operand h =>
    refine hbare ?_
    cases h with
    | literal h => cases h <;> exact he
    | slot => exact he
    | reference => exact he
  | math => exact hbare he
  | @comparison op first second span us os vs hfirst hop hsecond =>
    obtain ⟨k, hus, hrest⟩ := took_append.1 htook
    obtain ⟨l, hos, hvs⟩ := took_append.1 hrest
    have hstart := (startsWith_expression hsecond).kindAt hvs
    refine .firstOf_cons (.bind' (yields_arithmetic hp hfirst he.1 hus ?_) fun a ha => ?_)
    · have hkinds : ∀ kind ∈ comparisonStarts, kind ∉ afterSum := by decide
      exact hkinds _ (hos.stands.comparisonStarts hop)
    · refine .bind' (yields_comparison hop hos hstart) ?_
      intro read hread
      obtain rfl := hread
      refine .bind' (yields_arithmetic hp hsecond he.2 hvs hsum) fun b hb => .pure' ?_
      simp only [Expr.unplaced, ha, hb]

end Phrase

end Prose.Grammar
