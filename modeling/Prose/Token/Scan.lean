import Prose.Text.Alphabet
import Prose.Text.Blank
import Prose.Text.Bytes
import Prose.Token.Keyword

/- Reading a text into tokens. The reader looks at the first character, decides
   the kind of the token that starts there and how many of the following
   characters belong to it, and goes on with what is left. Nothing is skipped:
   blanks and unreadable characters are tokens too, so the texts of all tokens
   together are the text that was read. -/
namespace Prose.Token

open Prose.Text

/-- Whether the text starts with a character of the class. -/
def startsWith (class? : Char → Bool) : List Char → Bool
  | [] => false
  | c :: _ => class? c

/-- How many of the first characters are in the class. -/
def runLength (class? : Char → Bool) (cs : List Char) : Nat := (cs.takeWhile class?).length

/-- Characters up to the parenthesis that closes `depth` open ones, itself
    included, or `none` if the text ends before it. -/
def commentLength : Nat → List Char → Option Nat
  | _, [] => none
  | depth, c :: rest =>
    if c = '(' then (commentLength (depth + 1) rest).map (· + 1)
    else if c = ')' then
      if depth ≤ 1 then some 1 else (commentLength (depth - 1) rest).map (· + 1)
    else (commentLength depth rest).map (· + 1)

/-- Characters up to the next double quote, itself included, or `none`. -/
def quotedLength : List Char → Option Nat
  | [] => none
  | c :: rest => if c = '"' then some 1 else (quotedLength rest).map (· + 1)

/-- Characters that continue a word. A hyphen does when a letter or numeral
    follows it: `zero-index` is one word, `height->` is a word and an arrow. -/
def wordLength : List Char → Nat
  | [] => 0
  | c :: rest =>
    if isLetterOrNumeral c || c == '_' then wordLength rest + 1
    else if c == '-' && startsWith isLetterOrNumeral rest then wordLength rest + 1
    else 0

/-- The kind of a number and the characters that follow its first digit. Two
    numbers with a slash between them are one ratio. -/
def numberLexeme (rest : List Char) : Kind × Nat :=
  let digits := runLength isDecimalDigit rest
  match rest.drop digits with
  | '/' :: more =>
    if startsWith isDecimalDigit more then
      (.ratioLiteral, digits + 1 + runLength isDecimalDigit more)
    else (.intLiteral, digits)
  | _ => (.intLiteral, digits)

/-- After an apostrophe: an `s` that no letter or numeral follows. -/
def possessiveLexeme : List Char → Kind × Nat
  | c :: rest =>
    if (c == 's' || c == 'S') && !startsWith isLetterOrNumeral rest then (.possessive, 1)
    else (.error, 0)
  | [] => (.error, 0)

/-- The kind of the token that starts with `c`, and how many characters of
    `rest` belong to it. -/
def lexeme (c : Char) (rest : List Char) : Kind × Nat :=
  if isBlank c then (.blank, runLength isBlank rest)
  else match c with
  | '.' => (.dot, 0)
  | ';' => (.semicolon, 0)
  | ',' => (.comma, 0)
  | ':' => (.colon, 0)
  | '-' => if startsWith (· == '>') rest then (.arrow, 1) else (.error, 0)
  | '\'' | '\u2019' => possessiveLexeme rest
  | '(' => match commentLength 1 rest with
    | some n => (.comment, n)
    | none => (.error, rest.length)
  | '"' => match quotedLength rest with
    | some n => (.stringLiteral, n)
    | none => (.error, rest.length)
  | '$' =>
    if startsWith isHexDigit rest then (.byteArrayLiteral, runLength isHexDigit rest)
    else (.error, 0)
  | c =>
    if isDecimalDigit c then numberLexeme rest
    else if isLetter c || c == '_' then
      let n := wordLength rest
      ((Kind.ofKeyword? (String.ofList (c :: rest.take n))).getD .identifier, n)
    else (.error, 0)

/-- All tokens of a text that starts at byte `offset`, closed by one empty token. -/
def scanFrom (offset : Nat) : List Char → List Token
  | [] => [⟨.stop, "", offset, offset⟩]
  | c :: rest =>
    let found := lexeme c rest
    let chars := c :: rest.take found.2
    let stop := offset + byteLength chars
    ⟨found.1, String.ofList chars, offset, stop⟩ :: scanFrom stop (rest.drop found.2)
termination_by cs => cs.length
decreasing_by
  rw [List.length_drop, List.length_cons]
  omega

/-- All tokens of a text that starts at byte `offset` of its document. -/
def scan (offset : Nat) (text : String) : List Token := scanFrom offset text.toList

/-- The tokens that rules look at, with the closing one. -/
def nonBlank (ts : List Token) : List Token := ts.filter fun t => t.kind != .blank

/-- The tokens that rules look at, without the closing one. -/
def significant (ts : List Token) : List Token := ts.filter isSignificant

end Prose.Token
