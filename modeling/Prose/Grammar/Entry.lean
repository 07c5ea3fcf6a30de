import Prose.Token.Basic

/- Entries: what sort of sentence a first word announces. -/
namespace Prose.Grammar

/-- The sort of sentence that a first word announces. -/
inductive Entry where
  | reference | declaration | expression | conditional | labeled | result | invocation
  deriving DecidableEq

namespace Entry

/-- The entry that a first token of a kind announces. -/
def ofKind? : Kind → Option Entry
  | .indefiniteArticle => some reference
  | .definiteArticle => some declaration
  | .addWord | .subtractWord | .multiplyWord | .divideWord | .putWord | .letWord => some expression
  | .ifWord => some conditional
  | .toWord | .defineWord => some labeled
  | .resultWord | .returnWord => some result
  | .identifier => some invocation
  | _ => none

/-- Headers and calls of procedures keep comments as part of their marker;
    everywhere else comments say nothing. -/
def keepsComments : Entry → Bool
  | labeled | invocation => true
  | _ => false

/-- Whether a sentence of this sort is always a whole statement, never a bare
    expression or declaration. -/
def statementOnly : Entry → Bool
  | conditional | labeled | result | invocation => true
  | _ => false

/-- The name of an entry. -/
def name : Entry → String
  | reference => "Reference"
  | declaration => "Declaration"
  | expression => "Expression"
  | conditional => "If"
  | labeled => "Labeled"
  | result => "Result"
  | invocation => "Invocation"

end Entry

end Prose.Grammar
