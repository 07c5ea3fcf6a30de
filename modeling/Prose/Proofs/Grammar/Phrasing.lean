import Prose.Grammar.Declaration
import Prose.Proofs.Grammar.Wording

/- Phrasings of statements. The trees that can be said, and the tokens that say them:
   which phrase stands for which statement, with all the words that may stand for each
   other in it and all those that may be missing. -/
namespace Prose

/-! Trees that can be said. -/

namespace Expr

/-- A value that has a literal. -/
def IsLiteral : Expr → Prop
  | int n _ | inches (int n _) _ => 0 ≤ n ∧ n ≤ Text.maxInteger
  | text s _ => '"' ∉ s.toList
  | bytes bs _ => bs ≠ []
  | ratio n d _ => Text.fitsInteger n ∧ Text.fitsInteger d
  | null _ => True
  | _ => False

/-- A literal, a slot of one or a reference. -/
def IsOperand : Expr → Prop
  | reference _ _ => True
  | possessive slot owner _ => slot.owners = [] ∧ owner.IsLiteral
  | e => e.IsLiteral

/-- Operations and comparisons of operands. -/
def IsCombined : Expr → Prop
  | math _ first second _ => first.IsCombined ∧ second.IsCombined
  | comparison op first second _ => op ≠ .invalid ∧ first.IsCombined ∧ second.IsCombined
  | e => e.IsOperand

/-- What stands where any expression may: operations of operands, grouped as they are read,
    or a single comparison of two of those. -/
def Sayable (e : Expr) : Prop := e.IsCombined ∧ e.Canonical

end Expr

namespace Stmt

/-- A statement without a condition. -/
def IsPlain : Stmt → Prop
  | variableDeclaration d _ => ∀ e ∈ d.initializer, e.Sayable
  | constantDeclaration name value _ => name.owners = [] ∧ value.IsLiteral
  | unitAlias name (.int n _) base _ =>
    name.owners = [] ∧ base.owners = [] ∧ 0 ≤ n ∧ n ≤ Text.maxInteger
  | pointerDeclaration pointer _ _ => pointer.owners = []
  | shapeDeclaration d _ => (d.base.isSome ∨ d.slots.isSome) ∧ d.slots ≠ some []
  | expression (.update inPlace _ operand _ _) _ => inPlace = true ∧ operand.Sayable
  | expression (.assignment _ value _) _ => value.Sayable
  | result value _ => value.Sayable
  | _ => False

/-- Conditions upon conditions, with a statement without one below them. -/
def IsNested : Stmt → Prop
  | conditional test branch _ => test.Sayable ∧ test.isComparison ∧ branch.IsNested
  | s => s.IsPlain

/-- A statement that can be said: only the outermost condition may be one for several
    statements, and for those only if none of them has a condition. -/
def Sayable : Stmt → Prop
  | conditional test (.block body _) _ =>
    test.Sayable ∧ test.isComparison ∧ 2 ≤ body.length ∧ ∀ s ∈ body, s.IsPlain
  | s => s.IsNested

/-- How many conditions there are, one below the other. -/
def depth : Stmt → Nat
  | conditional _ branch _ => branch.depth + 1
  | _ => 0

end Stmt

namespace Grammar

/-! What they are said with. -/

/-- A literal as it is written for its value. -/
inductive LiteralShown : Expr → List Token → Prop where
  | int {t : Token} {n : Int} {span : Span} (h : t.kind = .intLiteral) (hn : t.text = toString n) :
      LiteralShown (.int n span) [t]
  | inches {t u : Token} {n : Int} {inner span : Span} (h : t.kind = .intLiteral)
      (hn : t.text = toString n) (hu : u.kind = .inchWord) :
      LiteralShown (.inches (.int n inner) span) [t, u]
  | text {t : Token} {s : String} {span : Span} (h : t.kind = .stringLiteral)
      (hs : t.text = "\"" ++ s ++ "\"") : LiteralShown (.text s span) [t]
  | bytes {t : Token} {bs : List UInt8} {span : Span} (h : t.kind = .byteArrayLiteral)
      (hbs : t.text = "$" ++ String.ofList (bs.flatMap Text.showByte)) :
      LiteralShown (.bytes bs span) [t]
  | ratio {t : Token} {n d : Int} {span : Span} (h : t.kind = .ratioLiteral)
      (hnd : t.text = toString n ++ "/" ++ toString d) : LiteralShown (.ratio n d span) [t]
  | null {t : Token} {span : Span} (h : t.kind = .nullWord) : LiteralShown (.null span) [t]

/-- What an expression is said with. -/
abbrev Shown : Expr → List Token → Prop := Expr.Worded (Operand LiteralShown Possessions)

/-- `to`, which may be missing. -/
def MaybeTo (ts : List Token) : Prop := ts = [] ∨ Says [.toWord] ts

/-- `a|an <name>`, or `some <name>` for a collection. -/
inductive Typed : String → Bool → List Token → Prop where
  | one {article : Token} {name : String} {ts : List Token}
      (harticle : article.kind = .indefiniteArticle) (hname : Words name ts) :
      Typed name false (article :: ts)
  | collection {article : Token} {name : String} {ts : List Token}
      (harticle : article.kind = .someWord) (hname : Words name ts) :
      Typed name true (article :: ts)

/-- `equal [to] <expr>`, if there is a value at the start. -/
inductive Initialized : Option Expr → List Token → Prop where
  | none : Initialized none []
  | some {equal : Token} {particle : List Token} {e : Expr} {ts : List Token}
      (hequal : equal.kind = .equalWord) (hto : MaybeTo particle) (he : Shown e ts) :
      Initialized (some e) (equal :: (particle ++ ts))

/-- `is [a|an|the] <name>` or `at the <name>`, if the slot stands for another one. -/
inductive Aliased : Option String → List Token → Prop where
  | none : Aliased none []
  | is {verb : Token} {article : List Token} {name : String} {ts : List Token}
      (hverb : verb.kind = .isWord) (harticle : MaybeArticle article) (hname : Words name ts) :
      Aliased (some name) (verb :: (article ++ ts))
  | at {preposition article : Token} {name : String} {ts : List Token}
      (hat : preposition.kind = .atWord) (harticle : article.kind = .definiteArticle)
      (hname : Words name ts) : Aliased (some name) (preposition :: article :: ts)

/-- Slots, with a comma, an `and` or both between them. -/
inductive Slots : List Slot → List Token → Prop where
  | last {s : Slot} {ts us : List Token} (htype : Typed s.name s.collection ts)
      (hother : Aliased s.aliasFor us) : Slots [s] (ts ++ us)
  | more {s : Slot} {ss : List Slot} {ts us separator vs : List Token}
      (htype : Typed s.name s.collection ts) (hother : Aliased s.aliasFor us)
      (hseparator : separator.map Token.kind ∈ [[.comma], [.andWord], [.comma, .andWord]])
      (hlater : Slots ss vs) : Slots (s :: ss) (ts ++ (us ++ (separator ++ vs)))

/-- The verb of `add <expr> to <ref>` or `subtract <expr> from <ref>`, and its preposition. -/
def sumVerbs : List (MathOp × Kind × Kind) :=
  [(.plus, .addWord, .toWord), (.minus, .subtractWord, .fromWord)]

/-- The verb of `multiply <ref> by <expr>` or `divide <ref> by <expr>`. -/
def factorVerbs : List (MathOp × Kind) := [(.multiply, .multiplyWord), (.divide, .divideWord)]

/-- A statement without a condition, and what it is said with. -/
inductive Plainly : Stmt → List Token → Prop where
  | declared {d : VariableDeclaration} {span : Span} {the verb : Token}
      {name type value : List Token} (hthe : the.kind = .definiteArticle)
      (hname : Words d.name name) (hverb : verb.kind ∈ [.isWord, .areWord])
      (htype : Typed d.type.name d.type.collection type) (hvalue : Initialized d.initializer value) :
      Plainly (.variableDeclaration d span) (the :: (name ++ verb :: (type ++ value)))
  | constant {r : Reference} {e : Expr} {span : Span} {the verb : Token} {name ts : List Token}
      (hthe : the.kind = .definiteArticle) (hname : Words r.name name) (hverb : verb.kind = .isWord)
      (he : LiteralShown e ts) :
      Plainly (.constantDeclaration r e span) (the :: (name ++ verb :: ts))
  | unit {r base : Reference} {n : Int} {inner span : Span} {the verb amount unit : Token}
      {name : List Token} (hthe : the.kind = .definiteArticle) (hname : Words r.name name)
      (hverb : verb.kind = .isWord) (hamount : LiteralShown (.int n inner) [amount])
      (hunit : unit.kind = .identifier) (hbase : unit.text = base.name ++ "s") :
      Plainly (.unitAlias r (.int n inner) base span) (the :: (name ++ [verb, amount, unit]))
  | pointer {r : Reference} {base : TypeName} {span : Span} {article verb one pointer particle : Token}
      {name type : List Token} (harticle : article.kind = .indefiniteArticle)
      (hname : Words r.name name) (hverb : verb.kind = .isWord)
      (hone : one.kind = .indefiniteArticle) (hpointer : isPointerWord pointer)
      (hto : particle.kind = .toWord) (htype : Typed base.name base.collection type) :
      Plainly (.pointerDeclaration r base span)
        (article :: (name ++ verb :: one :: pointer :: particle :: type))
  | shape {name : String} {base : TypeName} {inner span : Span} {article verb : Token}
      {words type : List Token} (harticle : article.kind = .indefiniteArticle)
      (hname : Words name words) (hverb : verb.kind = .isWord)
      (htype : Typed base.name base.collection type) :
      Plainly (.shapeDeclaration ⟨name, some base, none, inner⟩ span)
        (article :: (words ++ verb :: type))
  | shapeWith {name : String} {base : TypeName} {slots : List Slot} {inner span : Span}
      {article verb preposition : Token} {words type ts : List Token}
      (harticle : article.kind = .indefiniteArticle) (hname : Words name words)
      (hverb : verb.kind = .isWord) (htype : Typed base.name base.collection type)
      (hwith : preposition.kind = .withWord) (hslots : Slots slots ts) :
      Plainly (.shapeDeclaration ⟨name, some base, some slots, inner⟩ span)
        (article :: (words ++ verb :: (type ++ preposition :: ts)))
  | shapeOf {name : String} {slots : List Slot} {inner span : Span} {article verb : Token}
      {words ts : List Token} (harticle : article.kind = .indefiniteArticle)
      (hname : Words name words) (hverb : verb.kind = .hasWord) (hslots : Slots slots ts) :
      Plainly (.shapeDeclaration ⟨name, none, some slots, inner⟩ span)
        (article :: (words ++ verb :: ts))
  | sum {op : MathOp} {operand : Expr} {target : Reference} {inner span : Span}
      {verb preposition : Token} {ts us : List Token}
      (hverb : (op, verb.kind, preposition.kind) ∈ sumVerbs) (hoperand : Shown operand ts)
      (htarget : Possessions target.path us) :
      Plainly (.expression (.update true op operand target inner) span)
        (verb :: (ts ++ preposition :: us))
  | factor {op : MathOp} {operand : Expr} {target : Reference} {inner span : Span}
      {verb preposition : Token} {ts us : List Token} (hverb : (op, verb.kind) ∈ factorVerbs)
      (htarget : Possessions target.path ts) (hby : preposition.kind = .byWord)
      (hoperand : Shown operand us) :
      Plainly (.expression (.update true op operand target inner) span)
        (verb :: (ts ++ preposition :: us))
  | put {value : Expr} {target : Reference} {inner span : Span} {verb preposition : Token}
      {ts us : List Token} (hverb : verb.kind = .putWord) (hvalue : Shown value ts)
      (hinto : preposition.kind ∈ [.intoWord, .inWord]) (htarget : Possessions target.path us) :
      Plainly (.expression (.assignment target value inner) span)
        (verb :: (ts ++ preposition :: us))
  | letBe {value : Expr} {target : Reference} {inner span : Span} {verb copula : Token}
      {ts particle us : List Token} (hverb : verb.kind = .letWord) (htarget : Possessions target.path ts)
      (hcopula : copula.kind ∈ [.isWord, .equalWord]) (hto : MaybeTo particle) (hvalue : Shown value us) :
      Plainly (.expression (.assignment target value inner) span)
        (verb :: (ts ++ copula :: (particle ++ us)))
  | result {value : Expr} {span : Span} {opening ts : List Token}
      (hopening : opening.map Token.kind ∈ [[.resultWord, .isWord], [.returnWord]])
      (hvalue : Shown value ts) : Plainly (.result value span) (opening ++ ts)

/-- Some statements without conditions, with semicolons between them. -/
inductive Several : List Stmt → List Token → Prop where
  | last {s : Stmt} {ts : List Token} (h : Plainly s ts) : Several [s] ts
  | more {s : Stmt} {ss : List Stmt} {ts : List Token} {semicolon : Token} {us : List Token}
      (h : Plainly s ts) (hsemicolon : semicolon.kind = .semicolon) (hlater : Several ss us) :
      Several (s :: ss) (ts ++ semicolon :: us)

end Grammar

open Grammar

/-- A statement and what it is said with. -/
inductive Stmt.Worded : Stmt → List Token → Prop where
  | plain {s : Stmt} {ts : List Token} (h : Plainly s ts) : Worded s ts
  | conditional {test : Expr} {branch : Stmt} {span : Span} {opening separator : Token}
      {ts us : List Token} (hif : opening.kind = .ifWord) (htest : Shown test ts)
      (hthen : separator.kind ∈ [.thenWord, .comma]) (hbranch : Worded branch us) :
      Worded (.conditional test branch span) (opening :: (ts ++ separator :: us))
  | several {test : Expr} {body : List Stmt} {inner span : Span} {opening separator : Token}
      {ts us : List Token} (hif : opening.kind = .ifWord) (htest : Shown test ts)
      (hthen : separator.kind ∈ [.thenWord, .comma]) (hbody : Several body us) :
      Worded (.conditional test (.block body inner) span) (opening :: (ts ++ separator :: us))

end Prose
