import Prose.Diagnostic.Report
import Prose.Diagnostic.Suggestion

/- Failures of reading a sentence. A failure keeps its cause; message, place and
   suggestion are worked out from it. -/
namespace Prose

/-- Why a sentence could not be read. -/
inductive ParseFailure where
  /-- No rule got past a token; `expected` is what the rules wanted there. -/
  | mismatch (token : Token) (expected : List String)
  /-- The header of a procedure, alone, that starts at an offset. -/
  | labelAlone (offset : Nat)

namespace ParseFailure

/-- A token as messages show it. -/
def showToken (t : Token) : String :=
  if t.kind = .stop then Kind.stop.describe else "'" ++ t.text ++ "'"

/-- The message of a failure. -/
def message : ParseFailure → String
  | mismatch token [] => "Unexpected " ++ showToken token
  | mismatch token expected =>
    "Expected " ++ " or ".intercalate expected ++ " but found " ++ showToken token
  | labelAlone _ => "Procedure labels need a paragraph around them"

/-- Where a failure is reported. -/
def offset : ParseFailure → Nat
  | mismatch token _ => token.start
  | labelAlone offset => offset

/-- The text that was found instead of what was expected. -/
def found? : ParseFailure → Option String
  | mismatch token _ => some token.text
  | labelAlone _ => none

/-- What was expected, in the order in which rules asked for it. -/
def expected : ParseFailure → List String
  | mismatch _ expected => expected
  | labelAlone _ => []

/-- The keyword that a name was probably meant to be. -/
def suggestion? : ParseFailure → Option String
  | mismatch token _ => if token.kind = .identifier then suggestKeyword token.text else none
  | labelAlone _ => none

/-- The report of a failure in its text. -/
def render (f : ParseFailure) (s : SourceText) : String :=
  renderReport "error" f.message (s.locate f.offset) f.suggestion?

end ParseFailure

end Prose
