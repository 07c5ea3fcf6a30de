import Prose.Proofs.Grammar.GuardedMarkers

/- The rules of the grammar, guarded. Tokens are read by their index and phrases cut out of them;
   loops take one token at a time or put the cursor back by hand, and are stuck if they go round
   more often than there are tokens; references are stuck if they are nested deeper than the
   reader allows. Branches are readers of their own. -/
namespace Prose.Grammar

namespace Guarded

/-! ### Names and references -/

/-- Takes words as long as there are any. -/
def words : Nat → Guarded (List Token)
  | 0 => stuck
  | fuel + 1 => do
    if ← at? .identifier then
      let word ← advance
      let later ← words fuel
      pure (word :: later)
    else pure []

def longName : Guarded (String × Span) := do
  let start ← position
  let words ← words ((← endIndex) + 1)
  if words.isEmpty then fail "identifier"
  else return (Token.joinTexts words, ← spanFrom start)

def plainReference : Guarded Reference := do
  let start ← position
  let _ ← eat .indefiniteArticle
  let name ← longName
  pure (.plain name.1 (← spanFrom start))

def typeName : Guarded TypeName := do
  let start ← position
  let article ← eatAny [.indefiniteArticle, .someWord] "'a', 'an' or 'some'"
  let name ← longName
  pure ⟨name.1, article.kind == .someWord, ← spanFrom start⟩

def possessions (start : Nat) : Nat → Reference → Guarded Reference
  | 0, _ => stuck
  | fuel + 1, r => do
    if ← at? .possessive then
      let before ← position
      let _ ← advance
      skipAny articles
      match ← outcome longName with
      | some name => possessions start fuel ⟨name.1, ← spanFrom start, r.toOwner :: r.owners⟩
      | none => do moveTo before; pure r
    else pure r

def ownership (owner : Guarded Reference) (r : Reference) : Guarded Reference := do
  let before ← position
  let kind ← ahead
  if (← here) == .ofWord && articles.contains (kind 1) then
    let _ ← advance
    match ← outcome owner with
    | some o => pure (r.withRootOwner o)
    | none => do moveTo before; pure r
  else pure r

def ownedName (owner : Guarded Reference) : Guarded Reference := do
  let start ← position
  let _ ← eatAny articles "'a', 'an' or 'the'"
  let name ← longName
  let r ← possessions start (← endIndex) (.plain name.1 (← spanFrom start))
  ownership owner r

/-- A reference that recurses into itself no more often than said. -/
def referenceWithin : Nat → Guarded Reference
  | 0 => stuck
  | fuel + 1 => keptReference (ownedName (nested (referenceWithin fuel)))

def reference : Guarded Reference := fun r => referenceWithin (r.maxDepth + 1) r

/-! ### Expressions -/

def literal : Guarded Expr := do
  let token ← token (← position)
  let span := Span.ofToken token
  match token.kind with
  | .intLiteral =>
    match Text.readInteger token.text with
    | none => fail "number that fits in 64 bits"
    | some value => do
      let _ ← advance
      if ← at? .inchWord then
        let inch ← advance
        pure (.inches (.int value span) (span.cover (.ofToken inch)))
      else pure (.int value span)
  | .stringLiteral => do
    let _ ← advance
    pure (.text (unquote token.text) span)
  | .byteArrayLiteral =>
    match Text.readBytes (token.text.toList.drop 1) with
    | none => fail "byte array"
    | some value => do
      let _ ← advance
      pure (.bytes value span)
  | .ratioLiteral =>
    match readRatio token.text with
    | none => fail "ratio"
    | some (numerator, denominator) => do
      let _ ← advance
      pure (.ratio numerator denominator span)
  | .nullWord => do
    let _ ← advance
    pure (.null span)
  | _ => fail "literal"

def literalOrSlot : Guarded Expr := do
  let start ← position
  let owner ← literal
  let next ← token (← position)
  let kind ← ahead
  if next.kind == .possessive && kind 1 == .identifier then
    let _ ← advance
    let name ← longName
    pure (.possessive (.plain name.1 name.2) owner (← spanFrom start))
  else pure owner

def primary : Guarded Expr := do
  match ← outcome reference with
  | some r => pure (.reference r r.span)
  | none => literalOrSlot

/-- Operands joined to the left, by operators that stand at the cursor. -/
def joined (operator : Guarded (Option (MathOp × Nat))) (operand : Guarded Expr) :
    Nat → Expr → Guarded Expr
  | 0, _ => stuck
  | fuel + 1, left => do
    let before ← position
    match ← operator with
    | none => pure left
    | some (op, length) => do
      moveTo (before + length)
      match ← outcome operand with
      | some right => joined operator operand fuel (mathExpr op left right)
      | none => do moveTo before; pure left

def factorOperator : Guarded (Option (MathOp × Nat)) := do
  let first ← here
  let kind ← ahead
  pure <| match first, kind 1 with
    | .multipliedWord, .byWord => some (.multiply, 2)
    | .dividedWord, .byWord => some (.divide, 2)
    | _, _ => none

def termOperator : Guarded (Option (MathOp × Nat)) := do
  let first ← here
  pure <| match first with
    | .plusWord => some (.plus, 1)
    | .minusWord => some (.minus, 1)
    | _ => none

def term : Guarded Expr := do
  let first ← primary
  joined factorOperator primary (← endIndex) first

def arithmetic : Guarded Expr := keptExpression .arithmetic do
  let first ← term
  joined termOperator term (← endIndex) first

def comparison : Guarded Comparison := do
  let start ← position
  let kind ← ahead
  let found := comparisons.find? fun entry => entry.1.zipIdx.all fun (k, i) => kind i == k
  match found with
  | some (words, op) => do moveTo (start + words.length); pure op
  | none => fail "comparison"

def compared : Guarded Expr := do
  let first ← arithmetic
  let op ← comparison
  let second ← arithmetic
  pure (.comparison op first second (first.span.cover second.span))

def expression : Guarded Expr := keptExpression .expression (firstOf [compared, arithmetic])

def arithmeticPhrase (inPlace : Bool) : Guarded Expr := do
  let start ← position
  match ← here with
  | .addWord => do
    let _ ← advance
    let operand ← expression
    let _ ← eat .toWord
    let target ← reference
    pure (.update inPlace .plus operand target (← spanFrom start))
  | .subtractWord => do
    let _ ← advance
    let operand ← expression
    let _ ← eat .fromWord
    let target ← reference
    pure (.update inPlace .minus operand target (← spanFrom start))
  | .multiplyWord => do
    let _ ← advance
    let target ← reference
    let _ ← eat .byWord
    let operand ← expression
    pure (.update inPlace .multiply operand target (← spanFrom start))
  | .divideWord => do
    let _ ← advance
    let target ← reference
    let _ ← eat .byWord
    let operand ← expression
    pure (.update inPlace .divide operand target (← spanFrom start))
  | _ => fail "'add', 'subtract', 'multiply' or 'divide'"

def assignment : Guarded Expr := do
  let start ← position
  if ← at? .putWord then
    let _ ← advance
    let value ← expression
    let _ ← eatAny [.intoWord, .inWord] "'into' or 'in'"
    let target ← reference
    pure (.assignment target value (← spanFrom start))
  else
    let _ ← eat .letWord
    let target ← reference
    let _ ← eatAny [.isWord, .equalWord] "'is' or 'equals'"
    skipAny [.toWord]
    let value ← expression
    pure (.assignment target value (← spanFrom start))

/-! ### Declarations -/

def initializer : Guarded Expr := do
  let _ ← eat .equalWord
  skipAny [.toWord]
  expression

def variableDeclaration : Guarded VariableDeclaration := do
  let start ← position
  let _ ← eat .definiteArticle
  let name ← longName
  let _ ← eatAny [.isWord, .areWord] "'is' or 'are'"
  let type ← typeName
  let value ← outcome (attempt initializer)
  pure ⟨name.1, type, value, ← spanFrom start⟩

def variableStatement : Guarded Stmt := do
  let declaration ← variableDeclaration
  pure (.variableDeclaration declaration declaration.span)

def unitAlias : Guarded Stmt := do
  let start ← position
  let _ ← eat .definiteArticle
  let name ← longName
  let _ ← eat .isWord
  let amount ← eat .intLiteral
  match Text.readInteger amount.text with
  | none => fail "number that fits in 64 bits"
  | some value => do
    let unit ← eat .identifier
    pure (.unitAlias (.plain name.1 name.2) (.int value (.ofToken amount))
      (.plain (baseUnit unit.text) (.ofToken unit)) (← spanFrom start))

def constantDeclaration : Guarded Stmt := do
  let start ← position
  let _ ← eat .definiteArticle
  let name ← longName
  let _ ← eat .isWord
  let value ← literal
  pure (.constantDeclaration (.plain name.1 name.2) value (← spanFrom start))

def pointerDeclaration : Guarded Stmt := do
  let start ← position
  let _ ← eat .indefiniteArticle
  let name ← longName
  let pointer : Reference := .plain name.1 (← spanFrom start)
  let _ ← eat .isWord
  let _ ← eat .indefiniteArticle
  if isPointerWord (← token (← position)) then
    let _ ← advance
    let _ ← eat .toWord
    let base ← typeName
    pure (.pointerDeclaration pointer base (← spanFrom start))
  else fail "'pointer'"

def slotAlias : Guarded String := do
  match ← here with
  | .isWord => do
    let _ ← advance
    skipAny articles
    let name ← longName
    pure name.1
  | .atWord => do
    let _ ← advance
    let _ ← eat .definiteArticle
    let name ← longName
    pure name.1
  | _ => fail "'is' or 'at'"

def slot : Guarded Slot := do
  let start ← position
  let article ← eatAny [.indefiniteArticle, .someWord] "'a', 'an' or 'some'"
  let name ← longName
  let aliasFor ← outcome (attempt slotAlias)
  pure ⟨name.1, aliasFor, article.kind == .someWord, ← spanFrom start⟩

def moreSlots : Nat → Guarded (List Slot)
  | 0 => stuck
  | fuel + 1 => do
    let before ← position
    skipAny [.comma]
    skipAny [.andWord]
    if (← position) = before then pure []
    else match ← outcome slot with
      | some next => do
        let later ← moreSlots fuel
        pure (next :: later)
      | none => do moveTo before; pure []

def slotList : Guarded (List Slot) := do
  let first ← slot
  let later ← moreSlots (← endIndex)
  pure (first :: later)

def shapeDeclaration : Guarded Stmt := do
  let start ← position
  let _ ← eat .indefiniteArticle
  let name ← longName
  let _ ← eat .isWord
  let base ← typeName
  if ← at? .withWord then
    let _ ← advance
    let slots ← slotList
    let span ← spanFrom start
    pure (.shapeDeclaration ⟨name.1, some base, some slots, span⟩ span)
  else
    let span ← spanFrom start
    pure (.shapeDeclaration ⟨name.1, some base, none, span⟩ span)

def shapeOfSlots : Guarded Stmt := do
  let start ← position
  let _ ← eat .indefiniteArticle
  let name ← longName
  let _ ← eat .hasWord
  let slots ← slotList
  let span ← spanFrom start
  pure (.shapeDeclaration ⟨name.1, none, some slots, span⟩ span)

/-! ### Statements and headers -/

def expressionStatement (w : Guarded Expr) : Guarded Stmt := do
  let e ← w
  pure (.expression e e.span)

def statementSentence (w : Guarded Stmt) : Guarded Sentence := do
  let s ← w
  pure (.stmt s)

def resultStatement : Guarded Stmt := do
  let start ← position
  if ← at? .resultWord then
    let _ ← advance
    let _ ← eat .isWord
  else
    let _ ← eat .returnWord
  let value ← expression
  pure (.result value (← spanFrom start))

/-- A comparison that ends at index `stop`. -/
def wholeComparison (stop : Nat) : Guarded Expr := do
  let e ← expression
  fun r => some (if e.isComparison ∧ r.progress.pos = stop then some e else none, r)

def condition (stop : Nat) : Guarded Expr := do
  match ← outcome (attempt (wholeComparison stop)) with
  | some e => pure e
  | none => orStuck (looseCondition (← cut (← position) stop))

/-- Reads runs of tokens as branches. -/
def branches (parts : List (List Token)) : Guarded (List (Stmt × Bool)) :=
  fun r => (parts.mapM r.branch).map fun read => (some read, r)

/-- Whether nothing may be nested any more. -/
def deepest : Guarded Bool := look fun r => decide (r.maxDepth ≤ r.depth)

def branchStatement : Guarded Stmt := do
  let start ← position
  if ← deepest then fail "shallower nesting"
  else
    let parts := Token.splitAt .semicolon (← cut start (← endIndex))
    if parts.isEmpty then fail "statement"
    else
      moveTo (← endIndex)
      match ← branches parts with
      | [(only, true)] => pure only
      | read => pure (.block (read.map Prod.fst) (← spanFrom start))

def conditional : Guarded Stmt := do
  let start ← position
  let _ ← eat .ifWord
  let first ← position
  match ← find? first [.thenWord, .comma] with
  | none => do moveTo (← endIndex); fail "'then' or ','"
  | some separator =>
    if separator = first then fail "condition"
    else do
      let test ← condition separator
      moveTo (separator + 1)
      let branch ← branchStatement
      pure (.conditional test branch (← spanFrom start))

/-- The body behind a separator, if there is any. -/
def bodyBehind (separator : Option Nat) : Guarded (Option (List Token)) :=
  match separator with
  | none => pure none
  | some i => do
    let body ← cut (i + 1) (← endIndex)
    pure (if body.isEmpty then none else some body)

def header (start first : Nat) (separator : Option Nat) : Guarded Sentence := do
  let stop := separator.getD (← endIndex)
  match ← orStuck (markers [.intoWord] (← cut first stop)) with
  | .error i => do moveTo (first + i); fail "word"
  | .ok m =>
    if m.words.isEmpty then do moveTo stop; fail "procedure name"
    else do
      let body ← bodyBehind separator
      let opening ← token start
      let final ← token (max (stop - 1) start)
      moveTo (← endIndex)
      pure (.header ⟨[m.marker], m.parameters, m.result, ⟨opening.start, final.stop⟩⟩ body)

def keywordHeader : Guarded Sentence := do
  let start ← position
  let keyword ← eatAny [.toWord, .defineWord] "'to' or 'define'"
  let first ← position
  if keyword.kind == .defineWord then
    match ← find? first [.asWord] with
    | none => fail "'as'"
    | some separator => header start first (some separator)
  else header start first (← find? first [.colon, .arrow])

def bareHeader : Guarded Sentence := do
  let start ← position
  match ← find? start [.arrow] with
  | none => fail "'->'"
  | some arrow => header start start (some arrow)

def invocation : Guarded Sentence := do
  let start ← position
  match ← orStuck (markers [.intoWord, .inWord] (← cut start (← endIndex))) with
  | .error i => do moveTo (start + i); fail "word"
  | .ok m =>
    if m.words.isEmpty then fail "identifier"
    else do
      moveTo (← endIndex)
      pure (.stmt (.invocation m.marker m.parameters m.result (← spanFrom start)))

def sentenceOf : Entry → Guarded Sentence
  | .reference =>
    statementSentence (firstComplete [pointerDeclaration, shapeDeclaration, shapeOfSlots])
  | .declaration =>
    statementSentence (firstComplete [variableStatement, unitAlias, constantDeclaration])
  | .expression =>
    statementSentence (expressionStatement (firstComplete [arithmeticPhrase true, assignment]))
  | .conditional => statementSentence (complete conditional)
  | .labeled => complete keywordHeader
  | .result => statementSentence (complete resultStatement)
  | .invocation => firstComplete [bareHeader, invocation]

def sentence : Guarded Sentence := do
  match Entry.ofKind? (← here) with
  | none => fail "statement"
  | some entry => sentenceOf entry

/-! ### Runs of tokens -/

/-- What a rule gives for a reader, or the furthest mismatch. -/
def read {α : Type} (w : Guarded α) (r : Reader) : Option (Except ParseFailure α) :=
  match w r with
  | none => none
  | some (some a, _) => some (.ok a)
  | some (none, t) =>
    t.tokens[min t.progress.furthest (t.tokens.length - 1)]?.map fun token =>
      .error (.mismatch token t.progress.expected)

/-- Reads a branch as a statement. The body of a header has to be shorter than the branch. -/
def branchOf (parse : List Token → Option (Except ParseFailure Sentence)) (tokens : List Token) :
    Option (Stmt × Bool) :=
  match parse tokens with
  | none => none
  | some (.error _) => some (Stmt.ofUnread tokens, false)
  | some (.ok (.stmt s)) => some (s, true)
  | some (.ok (.header label none)) => some (Stmt.underHeader label (Stmt.noBody label), true)
  | some (.ok (.header label (some body))) =>
    if body.length < tokens.length then
      (branchOf parse body).map fun inner => (Stmt.underHeader label inner.1, inner.2)
    else none
termination_by tokens.length

/-- The reader of a run of significant tokens that is nested so deep, with room for more. -/
def readerOf (memoize : Bool) (depth room : Nat) (branch : List Token → Option (Stmt × Bool))
    (tokens : List Token) : Reader where
  tokens := withoutComments true tokens ++ [⟨.stop, "", stopOffset tokens, stopOffset tokens⟩]
  depth := depth
  maxDepth := depth + room
  memoize := memoize
  branch := branch
  progress := {}

/-- Reads a run of tokens as a sentence that is nested so deep, with room for more. -/
def sentenceWithin (memoize : Bool) : Nat → Nat → List Token → Option (Except ParseFailure Sentence)
  | depth, 0, tokens =>
    read sentence (readerOf memoize depth 0 (fun ts => some (Stmt.ofUnread ts, false))
      (tokens.filter Token.isSignificant))
  | depth, room + 1, tokens =>
    read sentence (readerOf memoize depth (room + 1)
      (fun ts => branchOf (sentenceWithin memoize (depth + 1) room) ts)
      (tokens.filter Token.isSignificant))

/-- Reads a run of tokens as a sentence. -/
def parseSentence (settings : ReadingSettings) (tokens : List Token) :
    Option (Except ParseFailure Sentence) :=
  sentenceWithin settings.memoize 0 settings.maxDepth tokens

end Guarded

end Prose.Grammar
