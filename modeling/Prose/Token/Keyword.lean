import Prose.Text.Case
import Prose.Token.Basic

/- The keywords. A keyword is recognised in small letters or with a capital
   first letter; any other spelling is an ordinary name. -/
namespace Prose

/-- Each keyword with its kind, in the order in which suggestions are tried. -/
def keywordKinds : List (String × Kind) :=
  [("a", .indefiniteArticle), ("an", .indefiniteArticle), ("the", .definiteArticle),
   ("some", .someWord),
   ("add", .addWord), ("subtract", .subtractWord), ("multiply", .multiplyWord),
   ("divide", .divideWord), ("multiplied", .multipliedWord), ("divided", .dividedWord),
   ("plus", .plusWord), ("minus", .minusWord),
   ("is", .isWord), ("are", .areWord), ("not", .notWord), ("equal", .equalWord),
   ("equals", .equalWord), ("smaller", .smallerWord), ("bigger", .biggerWord),
   ("less", .lessWord), ("greater", .greaterWord),
   ("than", .thanWord), ("at", .atWord), ("most", .mostWord), ("least", .leastWord),
   ("if", .ifWord), ("then", .thenWord), ("put", .putWord), ("let", .letWord),
   ("result", .resultWord), ("return", .returnWord), ("define", .defineWord), ("as", .asWord),
   ("has", .hasWord), ("with", .withWord),
   ("to", .toWord), ("from", .fromWord), ("by", .byWord), ("into", .intoWord), ("in", .inWord),
   ("of", .ofWord), ("and", .andWord),
   ("null", .nullWord), ("nil", .nullWord), ("inch", .inchWord), ("inches", .inchWord)]

/-- Every word that is a keyword, in lowercase. -/
def keywords : List String := keywordKinds.map Prod.fst

/-- A word with its capital first letter lowered, if that is its only capital. -/
def lowerInitial : List Char → List Char
  | [] => []
  | c :: rest => if Text.isUpper c && !rest.any Text.isUpper then Text.lowerChar c ++ rest else c :: rest

/-- The kind of a whole word, if it is a keyword. -/
def Kind.ofKeyword? (word : String) : Option Kind :=
  keywordKinds.lookup (String.ofList (lowerInitial word.toList))

end Prose
