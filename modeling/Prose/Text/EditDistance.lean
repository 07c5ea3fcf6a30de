import Prose.Text.Case

/- The edit distance of two words: the number of characters to insert, delete or
   replace, upper and lower case being the same. Row `i` of the table holds the
   distances of the first `i` characters of one word to every beginning of the
   other; each row follows from the one before it. -/
namespace Prose.Text

/-- The entries of the next row after its first. `diagonal` and `above` are the
    row before, `left` is the entry just made. -/
def editEntries (c : Char) : List Char → Nat → Nat → List Nat → List Nat
  | d :: ds, diagonal, left, above :: later =>
    let entry := min (min (diagonal + if c = d then 0 else 1) (left + 1)) (above + 1)
    entry :: editEntries c ds above entry later
  | _, _, _, _ => []

/-- The row after `row`, for one more character `c` of the first word. -/
def editRow (target : List Char) (row : List Nat) (c : Char) : List Nat :=
  match row with
  | [] => []
  | first :: above => (first + 1) :: editEntries c target first (first + 1) above

/-- The distance of two texts, letter case included. -/
def charDistance (a b : List Char) : Nat :=
  (a.foldl (editRow b) (List.range (b.length + 1))).getLastD 0

/-- The distance of two words in lowercase. -/
def editDistance (a b : String) : Nat := charDistance (lower a).toList (lower b).toList

end Prose.Text
