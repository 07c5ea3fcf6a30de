/- Tokens: the classified pieces of a text. A token keeps the characters it was
   read from and where they stand, so that everything built from tokens can point
   back into the text. -/
namespace Prose

/-- What a token is. Every keyword of the language has a kind of its own. -/
inductive Kind where
  | indefiniteArticle | definiteArticle | someWord
  | addWord | subtractWord | multiplyWord | divideWord
  | multipliedWord | dividedWord | plusWord | minusWord
  | isWord | areWord | notWord | equalWord | smallerWord | biggerWord | lessWord | greaterWord
  | thanWord | atWord | mostWord | leastWord
  | ifWord | thenWord | putWord | letWord | resultWord | returnWord | defineWord | asWord
  | hasWord | withWord
  | toWord | fromWord | byWord | intoWord | inWord | ofWord | andWord
  | nullWord | inchWord
  | intLiteral | stringLiteral | byteArrayLiteral | ratioLiteral
  | identifier
  | dot | semicolon | comma | colon | arrow | possessive | comment
  | blank | error | stop
  deriving DecidableEq

namespace Kind

/-- All kinds, in the order in which they are declared. -/
def all : List Kind :=
  [indefiniteArticle, definiteArticle, someWord,
   addWord, subtractWord, multiplyWord, divideWord, multipliedWord, dividedWord, plusWord, minusWord,
   isWord, areWord, notWord, equalWord, smallerWord, biggerWord, lessWord, greaterWord,
   thanWord, atWord, mostWord, leastWord,
   ifWord, thenWord, putWord, letWord, resultWord, returnWord, defineWord, asWord,
   hasWord, withWord,
   toWord, fromWord, byWord, intoWord, inWord, ofWord, andWord,
   nullWord, inchWord,
   intLiteral, stringLiteral, byteArrayLiteral, ratioLiteral,
   identifier,
   dot, semicolon, comma, colon, arrow, possessive, comment,
   blank, error, stop]

/-- The name under which a kind is written in a printed tree. -/
def name : Kind → String
  | indefiniteArticle => "IndefiniteArticle"
  | definiteArticle => "DefiniteArticle"
  | someWord => "SomeKeyword"
  | addWord => "Add"
  | subtractWord => "Subtract"
  | multiplyWord => "Multiply"
  | divideWord => "Divide"
  | multipliedWord => "Multiplied"
  | dividedWord => "Divided"
  | plusWord => "Plus"
  | minusWord => "Minus"
  | isWord => "Is"
  | areWord => "Are"
  | notWord => "Not"
  | equalWord => "Equal"
  | smallerWord => "Smaller"
  | biggerWord => "Bigger"
  | lessWord => "Less"
  | greaterWord => "Greater"
  | thanWord => "Than"
  | atWord => "At"
  | mostWord => "Most"
  | leastWord => "Least"
  | ifWord => "If"
  | thenWord => "Then"
  | putWord => "Put"
  | letWord => "Let"
  | resultWord => "ResultKeyword"
  | returnWord => "Return"
  | defineWord => "Define"
  | asWord => "As"
  | hasWord => "Has"
  | withWord => "With"
  | toWord => "To"
  | fromWord => "From"
  | byWord => "By"
  | intoWord => "Into"
  | inWord => "In"
  | ofWord => "Of"
  | andWord => "And"
  | nullWord => "Null"
  | inchWord => "Inch"
  | intLiteral => "IntLiteral"
  | stringLiteral => "StringLiteral"
  | byteArrayLiteral => "ByteArrayLiteral"
  | ratioLiteral => "RatioLiteral"
  | identifier => "Identifier"
  | dot => "Dot"
  | semicolon => "Semicolon"
  | comma => "Comma"
  | colon => "Colon"
  | arrow => "Arrow"
  | possessive => "Possessive"
  | comment => "Comment"
  | blank => "Whitespace"
  | error => "Error"
  | stop => "End"

/-- The kind that is written under a name. -/
def ofName? (s : String) : Option Kind := all.find? fun k => k.name == s

/-- How a report names a kind that it expected. -/
def describe : Kind → String
  | indefiniteArticle => "'a' or 'an'"
  | definiteArticle => "'the'"
  | someWord => "'some'"
  | addWord => "'add'"
  | subtractWord => "'subtract'"
  | multiplyWord => "'multiply'"
  | divideWord => "'divide'"
  | multipliedWord => "'multiplied'"
  | dividedWord => "'divided'"
  | plusWord => "'plus'"
  | minusWord => "'minus'"
  | isWord => "'is'"
  | areWord => "'are'"
  | notWord => "'not'"
  | equalWord => "'equal'"
  | smallerWord => "'smaller'"
  | biggerWord => "'bigger'"
  | lessWord => "'less'"
  | greaterWord => "'greater'"
  | thanWord => "'than'"
  | atWord => "'at'"
  | mostWord => "'most'"
  | leastWord => "'least'"
  | ifWord => "'if'"
  | thenWord => "'then'"
  | putWord => "'put'"
  | letWord => "'let'"
  | resultWord => "'result'"
  | returnWord => "'return'"
  | defineWord => "'define'"
  | asWord => "'as'"
  | hasWord => "'has'"
  | withWord => "'with'"
  | toWord => "'to'"
  | fromWord => "'from'"
  | byWord => "'by'"
  | intoWord => "'into'"
  | inWord => "'in'"
  | ofWord => "'of'"
  | andWord => "'and'"
  | nullWord => "'null'"
  | inchWord => "'inch'"
  | intLiteral => "number"
  | stringLiteral => "string"
  | byteArrayLiteral => "byte array"
  | ratioLiteral => "ratio"
  | identifier => "identifier"
  | dot => "'.'"
  | semicolon => "';'"
  | comma => "','"
  | colon => "':'"
  | arrow => "'->'"
  | possessive => "'s"
  | comment => "comment"
  | blank => "whitespace"
  | error => "unrecognised input"
  | stop => "end of input"

/-- A keyword is a kind that only fixed words have. -/
def isKeyword : Kind → Bool
  | intLiteral | stringLiteral | byteArrayLiteral | ratioLiteral | identifier
  | dot | semicolon | comma | colon | arrow | possessive | comment
  | blank | error | stop => false
  | _ => true

/-- Words are what marker phrases are made of. -/
def isWordLike (k : Kind) : Bool := k == identifier || k.isKeyword

/-- A terminator ends a sentence or a part of one. -/
def isTerminator (k : Kind) : Bool := k == dot || k == semicolon

/-- A literal stands for a value by itself. -/
def isLiteral : Kind → Bool
  | intLiteral | stringLiteral | byteArrayLiteral | ratioLiteral | nullWord => true
  | _ => false

end Kind

/-- A classified piece of text. The offsets are bytes of the whole document, also
    when only a part of it was read. -/
structure Token where
  kind : Kind
  text : String
  start : Nat
  stop : Nat
  deriving DecidableEq

namespace Token

/-- Blank tokens and the closing one carry nothing that a rule looks at. -/
def isSignificant (t : Token) : Bool := t.kind != .blank && t.kind != .stop

/-- The token texts with single spaces between them. -/
def joinTexts (ts : List Token) : String := " ".intercalate (ts.map Token.text)

end Token

end Prose
