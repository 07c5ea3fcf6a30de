import Prose.Document.Draft
import Prose.Document.Layout
import Prose.Grammar.Sentence
import Prose.LooseDeclaration
import Prose.Token.Scan

/- Reading documents. Every sentence goes through the grammar; what the grammar
   rejects may be a loose declaration; and what is none either stays in the tree
   as an invalid statement, so that reading a document never fails. A strict
   reading stops at the first sentence that the grammar rejects. -/
namespace Prose

open Grammar

/-- How the sentences of a document are read. -/
structure Reading where
  settings : ReadingSettings
  strict : Bool
  /-- The text of the document, its comments blanked out. -/
  text : List Char

namespace Reading

/-- The tokens of a sentence that the grammar rejects. -/
def rejected (r : Reading) (tokens : List Token) : Stmt :=
  let span := Span.ofTokens tokens
  match if r.settings.fallback then
      (LooseDeclaration.parse (Text.slice r.text span.start span.stop) span).toOption
    else none with
  | some s => s
  | none => Stmt.ofUnread tokens

/-- Reads one sentence. -/
def sentence (r : Reading) (tokens : List Token) : Except ParseFailure Sentence :=
  match parseSentence r.settings tokens with
  | .ok s => .ok s
  | .error e => if r.strict then .error e else .ok (.stmt (r.rejected tokens))

/-- Reads the body of a header as a statement. -/
def body (r : Reading) (tokens : List Token) : Except ParseFailure Stmt :=
  match r.sentence tokens with
  | .error e => .error e
  | .ok (.stmt s) => .ok s
  | .ok (.header label none) => .ok (.underHeader label (.noBody label))
  | .ok (.header label (some rest)) =>
    -- the body is a part of the sentence that was read, so it is shorter
    if rest.length < tokens.length then (r.body rest).map (.underHeader label)
    else .ok (Stmt.ofUnread tokens)
termination_by tokens.length

/-- Reads one sentence into a draft. -/
def addSentence (r : Reading) (d : Draft) (tokens : List Token) : Except ParseFailure Draft :=
  match r.sentence tokens with
  | .error e => .error e
  | .ok (.stmt s) => .ok (d.addStatement s)
  | .ok (.header label none) => .ok (d.addHeader label none)
  | .ok (.header label (some rest)) => (r.body rest).map fun s => d.addHeader label (some s)

/-- The tokens of a paragraph. -/
def tokens (r : Reading) (span : Span) : List Token :=
  Token.significant (Token.scanFrom span.start (Text.slice r.text span.start span.stop))

/-- Reads a paragraph. -/
def paragraph (r : Reading) (span : Span) : Except ParseFailure Paragraph :=
  ((Layout.sentences (r.tokens span)).foldlM r.addSentence {}).map fun d => d.finish span

end Reading

namespace Document

/-- The span of a whole text. -/
def spanOf (text : String) : Span := ⟨0, Text.byteLength text.toList⟩

/-- Reads a document, strictly or not. -/
def read (settings : ReadingSettings) (strict : Bool) (text : String) :
    Except ParseFailure Document :=
  let r : Reading := ⟨settings, strict, Layout.withoutComments settings.commentMarker text.toList⟩
  ((Layout.paragraphSpans text.toList).mapM r.paragraph).map fun ps => ⟨ps, spanOf text⟩

/-- A document that nothing could be read of. -/
def unread (text : String) : Document :=
  let s := Stmt.ofUnread (Token.scan 0 text)
  ⟨[⟨[s], none, s.span⟩], spanOf text⟩

/-- Reads a document. A strict reading that fails keeps the whole text as one
    invalid statement. -/
def parse (settings : ReadingSettings) (text : String) (strict : Bool := false) : Document :=
  match read settings strict text with
  | .ok d => d
  | .error _ => unread text

end Document

/-- Reads a text. With a terminator in it, or with no token at all, it is a document,
    and so is a single sentence that is always a statement, though that one may
    fail. Anything else is a bare reference, declaration or expression, or a
    single sentence. -/
def parseText (settings : ReadingSettings) (text : String) : Except ParseFailure Node :=
  let blanked := Layout.withoutComments settings.commentMarker text.toList
  let tokens := Token.significant (Token.scanFrom 0 blanked)
  if tokens.any fun t => t.kind.isTerminator then .ok (.document (Document.parse settings text))
  else match tokens.head? with
    | none => .ok (.document ⟨[], Document.spanOf text⟩)
    | some first =>
      match Entry.ofKind? first.kind with
      | some entry =>
        if entry.statementOnly then (Document.read settings true text).map .document
        else parseNode settings tokens
      | none => parseNode settings tokens

end Prose
