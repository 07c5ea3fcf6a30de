import Prose.Token.Basic

/- Spans: the part of the document that a node was read from. -/
namespace Prose

/-- A part of the document, from byte `start` up to byte `stop`. -/
structure Span where
  start : Nat
  stop : Nat
  deriving DecidableEq, Inhabited

namespace Span

/-- The empty span at the start of the document, for what was read from nothing. -/
def zero : Span := ⟨0, 0⟩

/-- The span of one token. -/
def ofToken (t : Token) : Span := ⟨t.start, t.stop⟩

/-- The least span that holds both. -/
def cover (s t : Span) : Span := ⟨min s.start t.start, max s.stop t.stop⟩

/-- From the first of some tokens to the last. -/
def ofTokens (ts : List Token) : Span :=
  match ts.head?, ts.getLast? with
  | some first, some last => ⟨first.start, last.stop⟩
  | _, _ => zero

end Span

end Prose
