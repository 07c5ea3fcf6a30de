import Prose.Tree.Basic

/- Marker phrases: the words of a procedure's header or call. Parameters are
   lifted out of the phrase, and so is a result at its end; what stays are the
   marker words that name the procedure. -/
namespace Prose.Grammar

/-- A header or call, split into marker words, parameters and result. -/
structure MarkerPhrase where
  words : List String
  parameters : List Reference
  result : Option Reference

namespace MarkerPhrase

/-- The marker words with single spaces. -/
def marker (m : MarkerPhrase) : String := " ".intercalate m.words

/-- The phrase with a parameter in front. -/
def addParameter (r : Reference) (m : MarkerPhrase) : MarkerPhrase :=
  { m with parameters := r :: m.parameters }

/-- The phrase with a marker word in front. -/
def addWord (w : String) (m : MarkerPhrase) : MarkerPhrase := { m with words := w :: m.words }

end MarkerPhrase

/-- The name behind an article that was just read, and what follows it. -/
def nameAfter (article : Token) (rest : List Token) : Option (Reference × List Token) :=
  let words := rest.takeWhile fun t => t.kind == .identifier
  match words.getLast? with
  | none => none
  | some last =>
    some (.plain (Token.joinTexts words) ⟨article.start, last.stop⟩,
      rest.dropWhile fun t => t.kind == .identifier)

theorem length_nameAfter_le {article : Token} {rest next : List Token} {r : Reference}
    (h : nameAfter article rest = some (r, next)) : next.length ≤ rest.length := by
  simp only [nameAfter] at h
  split at h
  · simp at h
  · simp only [Option.some.injEq, Prod.mk.injEq] at h
    rw [← h.2]
    exact (List.dropWhile_suffix _).length_le

/-- `a|an|some <name>` at the start of some tokens, and what follows it. -/
def parameterAt : List Token → Option (Reference × List Token)
  | [] => none
  | t :: rest =>
    if t.kind == .indefiniteArticle || t.kind == .someWord then nameAfter t rest else none

theorem length_parameterAt_lt {t : Token} {rest next : List Token} {r : Reference}
    (h : parameterAt (t :: rest) = some (r, next)) : next.length < rest.length + 1 := by
  rw [parameterAt] at h
  split at h
  · have := length_nameAfter_le h; omega
  · simp at h

/-- `a|an|the <name>` behind the word that announces a result, and what follows it. -/
def resultAt : List Token → Option (Reference × List Token)
  | [] => none
  | t :: rest =>
    if t.kind == .indefiniteArticle || t.kind == .definiteArticle then nameAfter t rest else none

/-- The result and the comments behind it, if the tokens end so. -/
def finalResult (rest : List Token) : Option (Reference × List Token) :=
  (resultAt rest).filter fun r => r.2.all fun t => t.kind == .comment

/-- Splits a phrase that begins at index `i`. An `and` between two parameters only
    joins them; comments and phrases with `the` stay in the marker. Fails with the
    index of the first token that cannot be part of a marker. -/
def splitMarker (resultKinds : List Kind) (i : Nat) (afterParameter : Bool) :
    List Token → Except Nat MarkerPhrase
  | [] => .ok ⟨[], [], none⟩
  | t :: rest =>
    match h : parameterAt (t :: rest) with
    | some (r, next) =>
      (splitMarker resultKinds (i + (rest.length + 1 - next.length)) true next).map
        (.addParameter r)
    | none =>
      if t.kind == .andWord && afterParameter && (parameterAt rest).isSome then
        splitMarker resultKinds (i + 1) true rest
      else match if resultKinds.contains t.kind then finalResult rest else none with
      | some (r, trailing) => .ok ⟨trailing.map Token.text, [], some r⟩
      | none =>
        if t.kind.isWordLike || t.kind == .comment then
          (splitMarker resultKinds (i + 1) false rest).map (.addWord t.text)
        else .error i
termination_by ts => ts.length
decreasing_by
  · have := length_parameterAt_lt h; simpa using this
  · simp
  · simp

/-- Splits a phrase into marker words, parameters and result. -/
def markerPhrase (resultKinds : List Kind) (tokens : List Token) : Except Nat MarkerPhrase :=
  splitMarker resultKinds 0 false tokens

/-- A condition that is not a comparison: the call of the procedure that its words
    name, or code that could not be read. -/
def looseCondition (tokens : List Token) : Expr :=
  let code := Token.joinTexts tokens
  let span := Span.ofTokens tokens
  match markerPhrase [] tokens with
  | .ok m =>
    .invocation (if m.words.isEmpty then code else m.marker)
      (m.parameters.map fun r => .reference r r.span) span
  | .error _ => .invalid code span

end Prose.Grammar
