import Prose.Grammar.Expression

/- Wordings: which tokens say which part of a tree. A wording knows nothing of rules
   and cursors, of what is tried first and of where a rule stops. It says of a name, a
   reference or an expression that some tokens, all of them and in their order, are what
   it is written with; spans play no part in it. -/
namespace Prose

namespace Grammar

/-- Tokens of fixed kinds, one after the other. -/
def Says (kinds : List Kind) (ts : List Token) : Prop := ts.map Token.kind = kinds

/-- One or more words that make up a name. -/
def Words (name : String) (ts : List Token) : Prop :=
  ts ≠ [] ∧ (∀ t ∈ ts, t.kind = .identifier) ∧ Token.joinTexts ts = name

/-- An article that may be missing. -/
def MaybeArticle (ts : List Token) : Prop := ts = [] ∨ ∃ k ∈ articles, Says [k] ts

/-- `a box's lid's hinge`, with the names from the outermost owner down. -/
inductive Possessions : List String → List Token → Prop where
  | name {article : Token} {name : String} {ts : List Token} (h : article.kind ∈ articles)
      (hname : Words name ts) : Possessions [name] (article :: ts)
  | slot {path : List String} {ts : List Token} {apostrophe : Token} {article : List Token}
      {name : String} {us : List Token} (h : Possessions path ts)
      (hapostrophe : apostrophe.kind = .possessive) (harticle : MaybeArticle article)
      (hname : Words name us) : Possessions (path ++ [name]) (ts ++ apostrophe :: (article ++ us))

/-- Possessions with the owner of the outermost of them behind an `of`, which may have
    owners of both sorts itself. -/
inductive Belongings : List String → List Token → Prop where
  | possessions {path : List String} {ts : List Token} (h : Possessions path ts) : Belongings path ts
  | owned {path : List String} {ts : List Token} {preposition : Token} {owner : List String}
      {us : List Token} (h : Possessions path ts) (hof : preposition.kind = .ofWord)
      (howner : Belongings owner us) : Belongings (owner ++ path) (ts ++ preposition :: us)

/-- A literal as its token is read. -/
inductive LiteralRead : Expr → List Token → Prop where
  | int {t : Token} {n : Int} {span : Span} (h : t.kind = .intLiteral)
      (hn : Text.readInteger t.text = some n) : LiteralRead (.int n span) [t]
  | inches {t u : Token} {n : Int} {inner span : Span} (h : t.kind = .intLiteral)
      (hn : Text.readInteger t.text = some n) (hu : u.kind = .inchWord) :
      LiteralRead (.inches (.int n inner) span) [t, u]
  | text {t : Token} {span : Span} (h : t.kind = .stringLiteral) :
      LiteralRead (.text (unquote t.text) span) [t]
  | bytes {t : Token} {bs : List UInt8} {span : Span} (h : t.kind = .byteArrayLiteral)
      (hbs : Text.readBytes (t.text.toList.drop 1) = some bs) : LiteralRead (.bytes bs span) [t]
  | ratio {t : Token} {n d : Int} {span : Span} (h : t.kind = .ratioLiteral)
      (hnd : readRatio t.text = some (n, d)) : LiteralRead (.ratio n d span) [t]
  | null {t : Token} {span : Span} (h : t.kind = .nullWord) : LiteralRead (.null span) [t]

/-- An operand: a literal, a slot of one or a reference, for given wordings of literals and
    of paths of names. -/
inductive Operand (literal : Expr → List Token → Prop) (path : List String → List Token → Prop) :
    Expr → List Token → Prop where
  | literal {e : Expr} {ts : List Token} (h : literal e ts) : Operand literal path e ts
  | slot {owner : Expr} {ts : List Token} {apostrophe : Token} {name : String} {us : List Token}
      {inner span : Span} (h : literal owner ts) (hapostrophe : apostrophe.kind = .possessive)
      (hname : Words name us) :
      Operand literal path (.possessive (.plain name inner) owner span) (ts ++ apostrophe :: us)
  | reference {r : Reference} {span : Span} {ts : List Token} (h : path r.path ts) :
      Operand literal path (.reference r span) ts

end Grammar

/-- The words of an operation between two operands. -/
def MathOp.words : MathOp → List Kind
  | plus => [.plusWord]
  | minus => [.minusWord]
  | multiply => [.multipliedWord, .byWord]
  | divide => [.dividedWord, .byWord]

/-- Multiplication and division. -/
def MathOp.isFactor : MathOp → Bool
  | multiply | divide => true
  | plus | minus => false

namespace Expr

/-- Whether an expression joins two operands by an operation. -/
def isMath : Expr → Bool
  | math .. => true
  | _ => false

/-- Whether an expression joins two operands by addition or subtraction. -/
def isSum : Expr → Bool
  | math op .. => !op.isFactor
  | _ => false

/-- Whether an expression is a comparison. -/
def isComparison : Expr → Bool
  | comparison .. => true
  | _ => false

/-- The operands of an expression and the phrases of its operations, in their order, for a
    given wording of operands. -/
inductive Worded (operand : Expr → List Token → Prop) : Expr → List Token → Prop where
  | operand {e : Expr} {ts : List Token} (h : operand e ts) : Worded operand e ts
  | math {op : MathOp} {first second : Expr} {span : Span} {ts os us : List Token}
      (hfirst : Worded operand first ts) (hop : Grammar.Says op.words os)
      (hsecond : Worded operand second us) :
      Worded operand (.math op first second span) (ts ++ (os ++ us))
  | comparison {op : Comparison} {first second : Expr} {span : Span} {ts os us : List Token}
      (hfirst : Worded operand first ts) (hop : (os.map Token.kind, op) ∈ Grammar.comparisons)
      (hsecond : Worded operand second us) :
      Worded operand (.comparison op first second span) (ts ++ (os ++ us))

/-- Operations group to the left and multiplication binds tighter: there is no sum below a
    product, no operation at the right of a product and no sum at the right of a sum. -/
def Arithmetic : Expr → Prop
  | math op first second _ => first.Arithmetic ∧ second.Arithmetic ∧
      if op.isFactor then first.isSum = false ∧ second.isMath = false else second.isSum = false
  | comparison .. => False
  | _ => True

/-- At most one comparison, and that at the root. -/
def Canonical : Expr → Prop
  | comparison _ first second _ => first.Arithmetic ∧ second.Arithmetic
  | e => e.Arithmetic

end Expr

end Prose
