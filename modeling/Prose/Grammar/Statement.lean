import Prose.Grammar.Declaration
import Prose.Grammar.Entry
import Prose.Grammar.Marker
import Prose.Token.Split

/- Statements and procedure headers. Which rules are tried is decided by the first
   word of the sentence; the rule that is taken has to read the whole sentence. -/
namespace Prose.Grammar

open Rule

/-- A sentence: a statement, or the header of a procedure with the tokens of its
    body, if any follow it. -/
inductive Sentence where
  | stmt (s : Stmt)
  | header (label : Label) (body : Option (List Token))

/-- An expression as a statement. -/
def expressionStatement (x : Rule Expr) : Rule Stmt := do
  let e ← x
  pure (.expression e e.span)

/-- A statement as a sentence. -/
def statementSentence (x : Rule Stmt) : Rule Sentence := do
  let s ← x
  pure (.stmt s)

namespace Phrase

variable (p : Phrase)

/-- `result is <expr>` or `return <expr>` -/
def resultStatement : Rule Stmt := do
  let start ← position
  if ← p.at? .resultWord then
    let _ ← p.advance
    let _ ← p.eat .isWord
  else
    let _ ← p.eat .returnWord
  let value ← p.expression
  pure (.result value (← p.spanFrom start))

/-- A comparison that ends at index `stop`. -/
def wholeComparison (stop : Nat) : Rule Expr := fun s =>
  match p.expression s with
  | (some (.comparison op first second span), t) =>
    (if t.pos = stop then some (.comparison op first second span) else none, t)
  | (_, t) => (none, t)

/-- The condition up to index `stop`: a comparison, or whatever else its words say. -/
def condition (stop : Nat) : Rule Expr := do
  match ← outcome (attempt (p.wholeComparison stop)) with
  | some e => pure e
  | none => pure (looseCondition (p.between (← position) stop))

/-- The branch of a condition: one statement or several between semicolons. A single
    statement of which a part could not be read stands in a block, too. -/
def branchStatement : Rule Stmt := do
  let start ← position
  if p.room = 0 then fail "shallower nesting"
  else
    let parts := Token.splitAt .semicolon (p.between start p.size)
    if parts.isEmpty then fail "statement"
    else
      moveTo p.size
      -- a single branch that could be read needs no block around it
      match parts.map p.branch with
      | [(only, true)] => pure only
      | read => pure (.block (read.map Prod.fst) (← p.spanFrom start))

/-- `if <condition> then|, <statement>[; <statement>]...` -/
def conditional : Rule Stmt := do
  let start ← position
  let _ ← p.eat .ifWord
  let first ← position
  match p.find? first [.thenWord, .comma] with
  | none => do moveTo p.size; fail "'then' or ','"
  | some separator =>
    if separator = first then fail "condition"
    else do
      let test ← p.condition separator
      moveTo (separator + 1)
      let branch ← p.branchStatement
      pure (.conditional test branch (← p.spanFrom start))

/-- A header that starts at index `start`, its phrase at `first`. The separator
    stands between the phrase and the body. -/
def header (start first : Nat) (separator : Option Nat) : Rule Sentence := do
  let stop := separator.getD p.size
  match markerPhrase [.intoWord] (p.between first stop) with
  | .error i => do moveTo (first + i); fail "word"
  | .ok m =>
    if m.words.isEmpty then do moveTo stop; fail "procedure name"
    else do
      let body := (separator.map fun i => p.between (i + 1) p.size).filter fun ts => !ts.isEmpty
      -- the header ends before its separator
      let last := max (stop - 1) start
      moveTo p.size
      let span : Span := ⟨(p.tokenAt start).start, (p.tokenAt last).stop⟩
      pure (.header ⟨[m.marker], m.parameters, m.result, span⟩ body)

/-- `to <phrase> [:|-> [body]]` or `define <phrase> as [body]` -/
def keywordHeader : Rule Sentence := do
  let start ← position
  let keyword ← p.eatAny [.toWord, .defineWord] "'to' or 'define'"
  let first ← position
  if keyword.kind == .defineWord then
    match p.find? first [.asWord] with
    | none => fail "'as'"
    | some separator => p.header start first (some separator)
  else p.header start first (p.find? first [.colon, .arrow])

/-- `<phrase> -> [body]` -/
def bareHeader : Rule Sentence := do
  let start ← position
  match p.find? start [.arrow] with
  | none => fail "'->'"
  | some arrow => p.header start start (some arrow)

/-- A call: `<phrase> [into|in <ref>]` -/
def invocation : Rule Sentence := do
  let start ← position
  match markerPhrase [.intoWord, .inWord] (p.between start p.size) with
  | .error i => do moveTo (start + i); fail "word"
  | .ok m =>
    if m.words.isEmpty then fail "identifier"
    else do
      moveTo p.size
      pure (.stmt (.invocation m.marker m.parameters m.result (← p.spanFrom start)))

/-- The whole phrase as a sentence of one sort. -/
def sentenceOf : Entry → Rule Sentence
  | .reference =>
    statementSentence
      (p.firstComplete [p.pointerDeclaration, p.shapeDeclaration, p.shapeOfSlots])
  | .declaration =>
    statementSentence
      (p.firstComplete [p.variableStatement, p.unitAlias, p.constantDeclaration])
  | .expression =>
    statementSentence
      (expressionStatement (p.firstComplete [p.arithmeticPhrase true, p.assignment]))
  | .conditional => statementSentence (p.complete p.conditional)
  | .labeled => p.complete p.keywordHeader
  | .result => statementSentence (p.complete p.resultStatement)
  | .invocation => p.firstComplete [p.bareHeader, p.invocation]

/-- The whole phrase as a sentence of the sort that its first word announces. -/
def sentence : Rule Sentence :=
  match Entry.ofKind? (p.kindAt 0) with
  | none => fail "statement"
  | some entry => p.sentenceOf entry

end Phrase

end Prose.Grammar
