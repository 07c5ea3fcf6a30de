import Prose.Grammar.Rule

/- Names and references. A name is one or more words. A reference is a name after
   an article; its owner stands before it with an apostrophe or after it with
   `of`, and both ways may be mixed. -/
namespace Prose.Grammar

open Rule

/-- The articles of a thing that is being used. -/
def articles : List Kind := [.indefiniteArticle, .definiteArticle]

namespace Phrase

variable (p : Phrase)

/-- One or more words, with single spaces between them. -/
def longName : Rule (String × Span) := do
  let start ← position
  let words := (p.tokens.drop start).takeWhile fun t => t.kind == .identifier
  if words.isEmpty then fail "identifier"
  else
    moveTo (start + words.length)
    pure (Token.joinTexts words, ← p.spanFrom start)

/-- `a|an <name>`, a plain use of a name. -/
def plainReference : Rule Reference := do
  let start ← position
  let _ ← p.eat .indefiniteArticle
  let name ← p.longName
  pure (.plain name.1 (← p.spanFrom start))

/-- `a|an <name>`, or `some <name>` for a collection. -/
def typeName : Rule TypeName := do
  let start ← position
  let article ← p.eatAny [.indefiniteArticle, .someWord] "'a', 'an' or 'some'"
  let name ← p.longName
  pure ⟨name.1, article.kind == .someWord, ← p.spanFrom start⟩

/-- Any number of `'s <name>` behind a reference that began at `start`. Each makes
    what came before it the owner of the new name. -/
def possessions (start : Nat) : Nat → Reference → Rule Reference
  | 0, r => pure r
  | fuel + 1, r => do
    if ← p.at? .possessive then
      let before ← position
      let _ ← p.advance
      p.skipAny articles
      -- an apostrophe without a name behind it is left for what follows
      match ← outcome p.longName with
      | some name => possessions start fuel ⟨name.1, ← p.spanFrom start, r.toOwner :: r.owners⟩
      | none => do moveTo before; pure r
    else pure r

/-- `of <reference>` behind a reference, where the owner is read by a given rule. -/
def ownership (owner : Rule Reference) (r : Reference) : Rule Reference := do
  let before ← position
  if p.kindAt before == .ofWord && articles.contains (p.kindAt (before + 1)) then
    let _ ← p.advance
    match ← outcome owner with
    | some o => pure (r.withRootOwner o)
    | none => do moveTo before; pure r
  else pure r

/-- `(a|an|the) <name>` with the possessives behind it and an owner read by a given rule. -/
def ownedName (owner : Rule Reference) : Rule Reference := do
  let start ← position
  let _ ← p.eatAny articles "'a', 'an' or 'the'"
  let name ← p.longName
  let r ← p.possessions start p.size (.plain name.1 (← p.spanFrom start))
  p.ownership owner r

/-- A reference with at most `room` levels of `of`. -/
def referenceWithin : Nat → Rule Reference
  | 0 => p.keptReference 0 (p.ownedName (fail "shallower nesting"))
  | room + 1 => p.keptReference (room + 1) (p.ownedName (attempt (referenceWithin room)))

/-- A reference. -/
def reference : Rule Reference := p.referenceWithin p.room

end Phrase

end Prose.Grammar
