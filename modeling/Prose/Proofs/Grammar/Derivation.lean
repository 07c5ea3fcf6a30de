import Prose.Grammar.Sentence
import Prose.Proofs.Grammar.Phrasing
import Prose.Proofs.Token.Runs

/- Derivations: which trees, places included, the grammar builds from which tokens. A
   wording leaves places open and says what a tree may be written with; a derivation
   says what a node covers that was read from some tokens, all of them and in their
   order. It knows nothing of cursors and of what is tried first. Everything that is
   read has a derivation, so what holds of all derivations holds of all trees that are
   read. -/
namespace Prose

/-- What a node covers that was read from some tokens: from the first of them to the last,
    and never less than nothing. -/
def Span.over (ts : List Token) : Span :=
  ⟨(ofTokens ts).start, max (ofTokens ts).stop (ofTokens ts).start⟩

namespace Grammar

/-! References and types. -/

/-- A reference with at most `room` owners behind an `of`: a name after an article, a slot of
    a reference without an `of`, or such a reference whose outermost owner stands behind one. -/
inductive ReferenceFrom : Nat → Reference → List Token → Prop where
  | name {room : Nat} {article : Token} {name : String} {ts : List Token}
      (harticle : article.kind ∈ articles) (hname : Words name ts) :
      ReferenceFrom room (.plain name (.over (article :: ts))) (article :: ts)
  | slot {room : Nat} {r : Reference} {ts : List Token} {apostrophe : Token}
      {article : List Token} {name : String} {us : List Token} (hr : ReferenceFrom 0 r ts)
      (hapostrophe : apostrophe.kind = .possessive) (harticle : MaybeArticle article)
      (hname : Words name us) :
      ReferenceFrom room ⟨name, .over (ts ++ apostrophe :: (article ++ us)), r.toOwner :: r.owners⟩
        (ts ++ apostrophe :: (article ++ us))
  | owned {room : Nat} {r : Reference} {ts : List Token} {preposition : Token}
      {owner : Reference} {us : List Token} (hr : ReferenceFrom 0 r ts)
      (hof : preposition.kind = .ofWord) (howner : ReferenceFrom room owner us) :
      ReferenceFrom (room + 1) (r.withRootOwner owner) (ts ++ preposition :: us)

theorem ReferenceFrom.mono {room more : Nat} {r : Reference} {ts : List Token}
    (h : ReferenceFrom room r ts) (hle : room ≤ more) : ReferenceFrom more r ts := by
  induction h generalizing more with
  | name harticle hname => exact .name harticle hname
  | slot hr hapostrophe harticle hname => exact .slot hr hapostrophe harticle hname
  | owned hr hof howner ihr ihowner =>
    obtain ⟨less, rfl⟩ := Nat.exists_eq_add_of_le' hle
    exact .owned hr hof (ihowner (Nat.le_add_left ..))

/-- `a|an|some <name>`, the use of a type. -/
inductive TypeFrom : TypeName → List Token → Prop where
  | name {article : Token} {name : String} {ts : List Token}
      (harticle : article.kind ∈ [.indefiniteArticle, .someWord]) (hname : Words name ts) :
      TypeFrom ⟨name, article.kind == .someWord, .over (article :: ts)⟩ (article :: ts)

/-- A slot of a shape, with the slot that it stands for. -/
inductive SlotFrom : Slot → List Token → Prop where
  | slot {article : Token} {name : String} {other : Option String} {ts us : List Token}
      (harticle : article.kind ∈ [.indefiniteArticle, .someWord]) (hname : Words name ts)
      (hother : Aliased other us) :
      SlotFrom ⟨name, other, article.kind == .someWord, .over (article :: (ts ++ us))⟩
        (article :: (ts ++ us))

/-- Slots with a comma, an `and` or both between them. -/
inductive SlotsFrom : List Slot → List Token → Prop where
  | last {s : Slot} {ts : List Token} (hs : SlotFrom s ts) : SlotsFrom [s] ts
  | more {s : Slot} {ss : List Slot} {ts separator us : List Token} (hs : SlotFrom s ts)
      (hseparator : separator.map Token.kind ∈ [[.comma], [.andWord], [.comma, .andWord]])
      (hlater : SlotsFrom ss us) : SlotsFrom (s :: ss) (ts ++ (separator ++ us))

/-! Expressions. -/

/-- A literal, which covers its own token. -/
inductive LiteralFrom : Expr → List Token → Prop where
  | int {t : Token} {n : Int} (h : t.kind = .intLiteral) (hn : Text.readInteger t.text = some n) :
      LiteralFrom (.int n (.ofToken t)) [t]
  | inches {t u : Token} {n : Int} (h : t.kind = .intLiteral)
      (hn : Text.readInteger t.text = some n) (hu : u.kind = .inchWord) :
      LiteralFrom (.inches (.int n (.ofToken t)) ((Span.ofToken t).cover (.ofToken u))) [t, u]
  | text {t : Token} (h : t.kind = .stringLiteral) :
      LiteralFrom (.text (unquote t.text) (.ofToken t)) [t]
  | bytes {t : Token} {bs : List UInt8} (h : t.kind = .byteArrayLiteral)
      (hbs : Text.readBytes (t.text.toList.drop 1) = some bs) :
      LiteralFrom (.bytes bs (.ofToken t)) [t]
  | ratio {t : Token} {n d : Int} (h : t.kind = .ratioLiteral)
      (hnd : readRatio t.text = some (n, d)) : LiteralFrom (.ratio n d (.ofToken t)) [t]
  | null {t : Token} (h : t.kind = .nullWord) : LiteralFrom (.null (.ofToken t)) [t]

/-- An operand: a literal, a slot of one or a reference. In all that is read of tokens, `room`
    bounds the owners behind an `of` in each reference. -/
inductive OperandFrom (room : Nat) : Expr → List Token → Prop where
  | literal {e : Expr} {ts : List Token} (h : LiteralFrom e ts) : OperandFrom room e ts
  | slot {owner : Expr} {ts : List Token} {apostrophe : Token} {name : String} {us : List Token}
      (howner : LiteralFrom owner ts) (hapostrophe : apostrophe.kind = .possessive)
      (hname : Words name us) :
      OperandFrom room (.possessive (.plain name (.over us)) owner (.over (ts ++ apostrophe :: us)))
        (ts ++ apostrophe :: us)
  | reference {r : Reference} {ts : List Token} (h : ReferenceFrom room r ts) :
      OperandFrom room (.reference r r.span) ts

/-- Operands joined by operations, which cover what they join. -/
inductive ArithmeticFrom (room : Nat) : Expr → List Token → Prop where
  | operand {e : Expr} {ts : List Token} (h : OperandFrom room e ts) : ArithmeticFrom room e ts
  | math {op : MathOp} {first second : Expr} {ts os us : List Token}
      (hfirst : ArithmeticFrom room first ts) (hop : Says op.words os)
      (hsecond : ArithmeticFrom room second us) :
      ArithmeticFrom room (mathExpr op first second) (ts ++ (os ++ us))

/-- Two sums with a comparison between them. -/
inductive ComparisonFrom (room : Nat) : Expr → List Token → Prop where
  | comparison {op : Comparison} {first second : Expr} {ts os us : List Token}
      (hfirst : ArithmeticFrom room first ts) (hop : (os.map Token.kind, op) ∈ comparisons)
      (hsecond : ArithmeticFrom room second us) (hleft : first.Arithmetic) (hright : second.Arithmetic) :
      ComparisonFrom room (.comparison op first second (first.span.cover second.span)) (ts ++ (os ++ us))

/-- Any expression. -/
inductive ExprFrom (room : Nat) : Expr → List Token → Prop where
  | arithmetic {e : Expr} {ts : List Token} (h : ArithmeticFrom room e ts) (hgrouped : e.Arithmetic) :
      ExprFrom room e ts
  | comparison {e : Expr} {ts : List Token} (h : ComparisonFrom room e ts) : ExprFrom room e ts

/-- `add <expr> to <ref>` and its kin, in place or not, or an assignment. -/
inductive ActionFrom (room : Nat) (inPlace : Bool) : Expr → List Token → Prop where
  | sum {op : MathOp} {operand : Expr} {target : Reference} {verb preposition : Token}
      {ts us : List Token} (hverb : (op, verb.kind, preposition.kind) ∈ sumVerbs)
      (hoperand : ExprFrom room operand ts) (htarget : ReferenceFrom room target us) :
      ActionFrom room inPlace
        (.update inPlace op operand target (.over (verb :: (ts ++ preposition :: us))))
        (verb :: (ts ++ preposition :: us))
  | factor {op : MathOp} {operand : Expr} {target : Reference} {verb preposition : Token}
      {ts us : List Token} (hverb : (op, verb.kind) ∈ factorVerbs)
      (htarget : ReferenceFrom room target ts) (hby : preposition.kind = .byWord)
      (hoperand : ExprFrom room operand us) :
      ActionFrom room inPlace
        (.update inPlace op operand target (.over (verb :: (ts ++ preposition :: us))))
        (verb :: (ts ++ preposition :: us))
  | put {value : Expr} {target : Reference} {verb preposition : Token} {ts us : List Token}
      (hverb : verb.kind = .putWord) (hvalue : ExprFrom room value ts)
      (hinto : preposition.kind ∈ [.intoWord, .inWord]) (htarget : ReferenceFrom room target us) :
      ActionFrom room inPlace (.assignment target value (.over (verb :: (ts ++ preposition :: us))))
        (verb :: (ts ++ preposition :: us))
  | letBe {value : Expr} {target : Reference} {verb copula : Token} {ts particle us : List Token}
      (hverb : verb.kind = .letWord) (htarget : ReferenceFrom room target ts)
      (hcopula : copula.kind ∈ [.isWord, .equalWord]) (hto : MaybeTo particle)
      (hvalue : ExprFrom room value us) :
      ActionFrom room inPlace
        (.assignment target value (.over (verb :: (ts ++ copula :: (particle ++ us)))))
        (verb :: (ts ++ copula :: (particle ++ us)))

/-! Statements without a branch. -/

/-- `equal [to] <expr>`, if there is a value at the start. -/
inductive InitializerFrom (room : Nat) : Option Expr → List Token → Prop where
  | none : InitializerFrom room none []
  | some {equal : Token} {particle : List Token} {e : Expr} {ts : List Token}
      (hequal : equal.kind = .equalWord) (hto : MaybeTo particle) (he : ExprFrom room e ts) :
      InitializerFrom room (some e) (equal :: (particle ++ ts))

/-- `the <name> is|are <type> [equal(s) [to] <expr>]` -/
inductive DeclarationFrom (room : Nat) : VariableDeclaration → List Token → Prop where
  | declared {name : String} {type : TypeName} {value : Option Expr} {the verb : Token}
      {ts us vs : List Token} (hthe : the.kind = .definiteArticle) (hname : Words name ts)
      (hverb : verb.kind ∈ [.isWord, .areWord]) (htype : TypeFrom type us)
      (hvalue : InitializerFrom room value vs) :
      DeclarationFrom room ⟨name, type, value, .over (the :: (ts ++ verb :: (us ++ vs)))⟩
        (the :: (ts ++ verb :: (us ++ vs)))

/-- A statement that has no branch. -/
inductive PlainFrom (room : Nat) : Stmt → List Token → Prop where
  | declared {d : VariableDeclaration} {ts : List Token} (h : DeclarationFrom room d ts) :
      PlainFrom room (.variableDeclaration d d.span) ts
  | unit {name : String} {n : Int} {the verb amount unit : Token} {ts : List Token}
      (hthe : the.kind = .definiteArticle) (hname : Words name ts) (hverb : verb.kind = .isWord)
      (hamount : amount.kind = .intLiteral) (hn : Text.readInteger amount.text = some n)
      (hunit : unit.kind = .identifier) :
      PlainFrom room (.unitAlias (.plain name (.over ts)) (.int n (.ofToken amount))
        (.plain (baseUnit unit.text) (.ofToken unit)) (.over (the :: (ts ++ [verb, amount, unit]))))
        (the :: (ts ++ [verb, amount, unit]))
  | constant {name : String} {e : Expr} {the verb : Token} {ts us : List Token}
      (hthe : the.kind = .definiteArticle) (hname : Words name ts) (hverb : verb.kind = .isWord)
      (he : LiteralFrom e us) :
      PlainFrom room (.constantDeclaration (.plain name (.over ts)) e (.over (the :: (ts ++ verb :: us))))
        (the :: (ts ++ verb :: us))
  | pointer {name : String} {base : TypeName} {article verb one pointer particle : Token}
      {ts us : List Token} (harticle : article.kind = .indefiniteArticle) (hname : Words name ts)
      (hverb : verb.kind = .isWord) (hone : one.kind = .indefiniteArticle)
      (hpointer : isPointerWord pointer) (hto : particle.kind = .toWord)
      (hbase : TypeFrom base us) :
      PlainFrom room (.pointerDeclaration (.plain name (.over (article :: ts))) base
          (.over (article :: (ts ++ verb :: one :: pointer :: particle :: us))))
        (article :: (ts ++ verb :: one :: pointer :: particle :: us))
  | shape {name : String} {base : TypeName} {article verb : Token} {ts us : List Token}
      (harticle : article.kind = .indefiniteArticle) (hname : Words name ts)
      (hverb : verb.kind = .isWord) (hbase : TypeFrom base us) :
      PlainFrom room (.shapeDeclaration ⟨name, some base, none, .over (article :: (ts ++ verb :: us))⟩
          (.over (article :: (ts ++ verb :: us))))
        (article :: (ts ++ verb :: us))
  | shapeWith {name : String} {base : TypeName} {slots : List Slot}
      {article verb preposition : Token} {ts us vs : List Token}
      (harticle : article.kind = .indefiniteArticle) (hname : Words name ts)
      (hverb : verb.kind = .isWord) (hbase : TypeFrom base us)
      (hwith : preposition.kind = .withWord) (hslots : SlotsFrom slots vs) :
      PlainFrom room (.shapeDeclaration
          ⟨name, some base, some slots, .over (article :: (ts ++ verb :: (us ++ preposition :: vs)))⟩
          (.over (article :: (ts ++ verb :: (us ++ preposition :: vs)))))
        (article :: (ts ++ verb :: (us ++ preposition :: vs)))
  | shapeOf {name : String} {slots : List Slot} {article verb : Token} {ts us : List Token}
      (harticle : article.kind = .indefiniteArticle) (hname : Words name ts)
      (hverb : verb.kind = .hasWord) (hslots : SlotsFrom slots us) :
      PlainFrom room (.shapeDeclaration
          ⟨name, none, some slots, .over (article :: (ts ++ verb :: us))⟩
          (.over (article :: (ts ++ verb :: us))))
        (article :: (ts ++ verb :: us))
  | action {e : Expr} {ts : List Token} (h : ActionFrom room true e ts) :
      PlainFrom room (.expression e e.span) ts
  | result {value : Expr} {opening ts : List Token}
      (hopening : opening.map Token.kind ∈ [[.resultWord, .isWord], [.returnWord]])
      (hvalue : ExprFrom room value ts) :
      PlainFrom room (.result value (.over (opening ++ ts))) (opening ++ ts)
  | invocation {m : MarkerPhrase} {ts : List Token}
      (hm : markerPhrase [.intoWord, .inWord] ts = .ok m) (hwords : m.words ≠ []) :
      PlainFrom room (.invocation m.marker m.parameters m.result (.over ts)) ts

/-! Headers, conditions and their branches. -/

/-- The header of a procedure: a phrase, with `to` or `define` before it or without. -/
inductive LabelFrom : Label → List Token → Prop where
  | header {keyword ts : List Token} {m : MarkerPhrase}
      (hkeyword : keyword.map Token.kind ∈ [[], [.toWord], [.defineWord]])
      (hm : markerPhrase [.intoWord] ts = .ok m) (hwords : m.words ≠ []) :
      LabelFrom ⟨[m.marker], m.parameters, m.result, .ofTokens (keyword ++ ts)⟩ (keyword ++ ts)

/-- A condition: a comparison, or whatever else its words say. -/
inductive ConditionFrom (room : Nat) : Expr → List Token → Prop where
  | comparison {e : Expr} {ts : List Token} (h : ComparisonFrom room e ts) : ConditionFrom room e ts
  | loose {ts : List Token} (hts : ts ≠ []) : ConditionFrom room (looseCondition ts) ts

/-- A statement with at most `room` conditions below each other. A branch is one statement
    or a block of the statements between semicolons, and may be a header with its body or
    tokens that nothing could read. -/
inductive StmtFrom : Nat → Stmt → List Token → Prop where
  | plain {room : Nat} {s : Stmt} {ts : List Token} (h : PlainFrom room s ts) : StmtFrom room s ts
  | conditional {room : Nat} {test : Expr} {branch : Stmt} {opening separator : Token}
      {ts us piece : List Token} (hif : opening.kind = .ifWord)
      (htest : ConditionFrom (room + 1) test ts)
      (hseparator : separator.kind ∈ [.thenWord, .comma])
      (hpiece : Token.splitAt .semicolon us = [piece]) (hbranch : StmtFrom room branch piece) :
      StmtFrom (room + 1) (.conditional test branch (.over (opening :: (ts ++ separator :: us))))
        (opening :: (ts ++ separator :: us))
  | block {room : Nat} {test : Expr} {body : List Stmt} {opening separator : Token}
      {ts us : List Token} (hif : opening.kind = .ifWord) (htest : ConditionFrom (room + 1) test ts)
      (hseparator : separator.kind ∈ [.thenWord, .comma]) (hbody : body ≠ [])
      (hlength : body.length = (Token.splitAt .semicolon us).length)
      (hbranch : ∀ b ∈ body.zip (Token.splitAt .semicolon us), StmtFrom room b.1 b.2) :
      StmtFrom (room + 1)
        (.conditional test (.block body (.over us)) (.over (opening :: (ts ++ separator :: us))))
        (opening :: (ts ++ separator :: us))
  | labeled {room : Nat} {label : Label} {body : Stmt} {separator : Token} {ts us : List Token}
      (hlabel : LabelFrom label ts) (hbody : StmtFrom room body us) :
      StmtFrom room (.underHeader label body) (ts ++ separator :: us)
  | noBody {room : Nat} {label : Label} {ts rest : List Token} (hlabel : LabelFrom label ts) :
      StmtFrom room (.underHeader label (.noBody label)) (ts ++ rest)
  | unread {room : Nat} {ts : List Token} (hts : ts ≠ [])
      (hsignificant : ∀ t ∈ ts, t.isSignificant) : StmtFrom room (.ofUnread ts) ts
  | uncommented {room : Nat} {s : Stmt} {ts : List Token}
      (h : StmtFrom room s (withoutComments true ts)) : StmtFrom room s ts

/-- The statements of a block have what each of them has as what is read of its run. -/
theorem forall_mem_branches {P : Stmt → Prop} {body : List Stmt} {us : List Token}
    (hlength : body.length = (Token.splitAt .semicolon us).length)
    (h : ∀ b ∈ body.zip (Token.splitAt .semicolon us), b.2.Sublist us → P b.1) : ∀ s ∈ body, P s := by
  rw [← List.map_fst_zip (Nat.le_of_eq hlength)]
  refine List.forall_mem_map.2 fun b hb => h b hb ?_
  exact Token.sublist_of_mem_splitAt (List.of_mem_zip hb).2

/-- A sentence: a statement, or a header with the tokens of its body. -/
inductive SentenceFrom (room : Nat) : Sentence → List Token → Prop where
  | stmt {s : Stmt} {ts : List Token} (h : StmtFrom room s ts) : SentenceFrom room (.stmt s) ts
  | header {label : Label} {ts rest : List Token} (hlabel : LabelFrom label ts) :
      SentenceFrom room (.header label none) (ts ++ rest)
  | body {label : Label} {separator : Token} {ts us : List Token} (hlabel : LabelFrom label ts)
      (hbody : us ≠ []) : SentenceFrom room (.header label (some us)) (ts ++ separator :: us)

/-- A bare node: a plain use of a name, an expression, a phrase or a declaration. -/
inductive BareFrom (room : Nat) : Node → List Token → Prop where
  | reference {r : Reference} {ts : List Token} (h : ReferenceFrom room r ts) :
      BareFrom room (.reference r) ts
  | expression {e : Expr} {ts : List Token} (h : ExprFrom room e ts) : BareFrom room (.expr e) ts
  | action {e : Expr} {ts : List Token} (h : ActionFrom room false e ts) :
      BareFrom room (.expr e) ts
  | declaration {d : VariableDeclaration} {ts : List Token} (h : DeclarationFrom room d ts) :
      BareFrom room (.variableDeclaration d) ts

end Grammar

end Prose
