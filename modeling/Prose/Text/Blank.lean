import Prose.Text.CodePoint

/- Blank characters: the white space of running text. Line ends, tabs and the
   typographic spaces are blank; a zero-width space is not. -/
namespace Prose.Text

/-- The code points with the property White_Space. -/
def blankRuns : CodeRuns :=
  [(0x9, 0xd), (0x20, 0x20), (0x85, 0x85), (0xa0, 0xa0), (0x1680, 0x1680), (0x2000, 0x200a),
   (0x2028, 0x2029), (0x202f, 0x202f), (0x205f, 0x205f), (0x3000, 0x3000)]

/-- A blank separates words and is never part of one. -/
def isBlank (c : Char) : Bool := blankRuns.contains c.toNat

/-- The text without its leading blanks. -/
def trimStart (cs : List Char) : List Char := cs.dropWhile isBlank

/-- The text without its trailing blanks. -/
def trimEnd (cs : List Char) : List Char := (cs.reverse.dropWhile isBlank).reverse

/-- The text without blanks at either end. -/
def trim (cs : List Char) : List Char := trimEnd (trimStart cs)

/-- The maximal blank-free runs of a text. -/
def blankSeparated : List Char → List (List Char)
  | [] => []
  | c :: rest =>
    if isBlank c then blankSeparated rest
    else match rest, blankSeparated rest with
      | next :: _, word :: words => if isBlank next then [c] :: word :: words else (c :: word) :: words
      | _, words => [c] :: words

end Prose.Text
