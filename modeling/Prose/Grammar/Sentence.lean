import Prose.Diagnostic.Failure
import Prose.Grammar.Statement
import Prose.Tree.Node

/- Reading a run of tokens as one sentence, or as a bare part of one. Branches of
   a condition are sentences too, one level deeper; a branch that cannot be read
   stays in the tree as an invalid statement. -/
namespace Prose.Grammar

/-- The sort of sentence that the first of some tokens announces. -/
def entryOf? (tokens : List Token) : Option Entry :=
  tokens.head?.bind fun t => Entry.ofKind? t.kind

/-- Comments count only where the entry keeps them. `unannounced` says whether they
    count in a run whose first token announces nothing. -/
def withoutComments (unannounced : Bool) (tokens : List Token) : List Token :=
  if ((entryOf? tokens).map Entry.keepsComments).getD unannounced then tokens
  else tokens.filter fun t => t.kind != .comment

/-- What a rule gives for a phrase, or the furthest mismatch. -/
def Phrase.read {α : Type} (p : Phrase) (x : Rule α) : Except ParseFailure α :=
  match x {} with
  | (some a, _) => .ok a
  | (none, s) => .error (.mismatch (p.tokenAt s.furthest) s.expected)

/-- The offset at which a run of tokens ends. -/
def stopOffset (tokens : List Token) : Nat := (tokens.getLast?.map Token.stop).getD 0

/-- Reads a branch as a statement. The body of a header is read the same way. -/
def branchOf (parse : List Token → Except ParseFailure Sentence) (tokens : List Token) :
    Stmt × Bool :=
  match parse tokens with
  | .error _ => (Stmt.ofUnread tokens, false)
  | .ok (.stmt s) => (s, true)
  | .ok (.header label none) => (Stmt.underHeader label (Stmt.noBody label), true)
  | .ok (.header label (some body)) =>
    -- the body is a part of the run that was read, so it is shorter
    if body.length < tokens.length then
      let inner := branchOf parse body
      (Stmt.underHeader label inner.1, inner.2)
    else (Stmt.ofUnread tokens, false)
termination_by tokens.length

/-- The phrase of a run of significant tokens, with room for some levels of nesting. -/
def phraseOf (memoize : Bool) (room : Nat) (branch : List Token → Stmt × Bool) (unannounced : Bool)
    (tokens : List Token) : Phrase :=
  { tokens := withoutComments unannounced tokens
    stopAt := stopOffset tokens
    memoize := memoize
    room := room
    branch := branch }

/-- Reads a run of tokens as a sentence whose branches are read in a given way. -/
def readSentence (memoize : Bool) (room : Nat) (branch : List Token → Stmt × Bool)
    (tokens : List Token) : Except ParseFailure Sentence :=
  let p := phraseOf memoize room branch true (tokens.filter Token.isSignificant)
  p.read p.sentence

/-- Reads a run of tokens as a sentence with at most `room` levels of nesting. -/
def sentenceWithin (memoize : Bool) : Nat → List Token → Except ParseFailure Sentence
  | 0, tokens => readSentence memoize 0 (fun ts => (Stmt.ofUnread ts, false)) tokens
  | room + 1, tokens =>
    readSentence memoize (room + 1) (fun ts => branchOf (sentenceWithin memoize room) ts) tokens

/-- Reads a run of tokens as a sentence. -/
def parseSentence (settings : ReadingSettings) (tokens : List Token) :
    Except ParseFailure Sentence :=
  sentenceWithin settings.memoize settings.maxDepth tokens

/-- How the branches of a sentence are read that has room for some levels. -/
def branchWithin (memoize : Bool) : Nat → List Token → Stmt × Bool
  | 0, tokens => (Stmt.ofUnread tokens, false)
  | room + 1, tokens => branchOf (sentenceWithin memoize room) tokens

/-- An expression as a node. -/
def expressionNode (x : Rule Expr) : Rule Node := do return .expr (← x)

namespace Phrase

variable (p : Phrase)

/-- A reference as a node. -/
def referenceNode : Rule Node := do return .reference (← p.plainReference)

/-- A variable declaration as a node. -/
def declarationNode : Rule Node := do return .variableDeclaration (← p.variableDeclaration)

/-- The whole phrase as a bare reference, declaration or expression. What is tried
    depends on what the first token announced, comments included. -/
def bare : Option Entry → Rule Node
  | some .reference => p.firstComplete [p.referenceNode, expressionNode p.expression]
  | some .declaration => p.firstComplete [p.declarationNode]
  | some .expression =>
    p.firstComplete [expressionNode (p.arithmeticPhrase false), expressionNode p.assignment]
  | some _ => fun s => (none, s)
  | none => p.firstComplete [expressionNode p.expression]

/-- The whole phrase as a bare node, or else as a sentence. -/
def bareOrSentence (entry : Option Entry) : Rule (Node ⊕ Sentence) :=
  Rule.firstOf [do return .inl (← p.bare entry), do return .inr (← p.sentence)]

end Phrase

/-- Reads a run of tokens as a bare reference, declaration or expression, or else
    as a sentence. A header alone is neither. -/
def parseNode (settings : ReadingSettings) (tokens : List Token) : Except ParseFailure Node :=
  let kept := tokens.filter Token.isSignificant
  -- the bare rules go by the first token of all, a sentence by the first that is no comment
  let p := phraseOf settings.memoize settings.maxDepth
    (branchWithin settings.memoize settings.maxDepth) false kept
  match p.read (p.bareOrSentence (entryOf? kept)) with
  | .error e => .error e
  | .ok (.inl n) => .ok n
  | .ok (.inr (.stmt s)) => .ok (.stmt s)
  | .ok (.inr (.header _ _)) => .error (.labelAlone (p.tokenAt 0).start)

end Prose.Grammar
