import Prose.Main
import Prose.Proofs.Code.Arithmetic
import Prose.Proofs.Code.Binding
import Prose.Proofs.Code.Composition
import Prose.Proofs.Code.Conversion
import Prose.Proofs.Diagnostic.Location
import Prose.Proofs.Diagnostic.Suggestion
import Prose.Proofs.Document.CommentLines
import Prose.Proofs.Document.Conditionals
import Prose.Proofs.Document.Containment
import Prose.Proofs.Document.Depth
import Prose.Proofs.Document.EntryPoints
import Prose.Proofs.Document.Fallback
import Prose.Proofs.Document.Locality
import Prose.Proofs.Document.Names
import Prose.Proofs.Document.Nested
import Prose.Proofs.Document.Order
import Prose.Proofs.Document.Owners
import Prose.Proofs.Document.Paragraphs
import Prose.Proofs.Document.Placement
import Prose.Proofs.Document.Quotes
import Prose.Proofs.Document.Unread
import Prose.Proofs.Grammar.Branches
import Prose.Proofs.Grammar.Comments
import Prose.Proofs.Grammar.Completeness
import Prose.Proofs.Grammar.Cursor
import Prose.Proofs.Grammar.Furthest
import Prose.Proofs.Grammar.Phrases
import Prose.Proofs.Grammar.Possessives
import Prose.Proofs.Grammar.Soundness
import Prose.Proofs.Machine.Agenda
import Prose.Proofs.Machine.Bytes
import Prose.Proofs.Machine.Exact
import Prose.Proofs.Machine.Independence
import Prose.Proofs.Machine.Table
import Prose.Proofs.Memoization
import Prose.Proofs.Token.Boundaries
import Prose.Proofs.Token.Lossless
import Prose.Proofs.Token.Respacing
