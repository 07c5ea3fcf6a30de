import Prose.Text.Bytes
import Prose.Text.EditDistance
import Prose.Token.Keyword

/- Suggestions: the keyword that a misspelt word was probably meant to be. -/
namespace Prose

/-- The first of the candidates with the least distance. -/
def nearest : List (String × Nat) → Option (String × Nat)
  | [] => none
  | c :: rest =>
    match nearest rest with
    | none => some c
    | some d => if d.2 < c.2 then some d else some c

/-- The distance of two numbers. -/
def difference (m n : Nat) : Nat := (m - n) + (n - m)

/-- The nearest of some keywords, if the word is close enough to be a misspelling
    of it. A word of two letters is a name, and a short word may only be one
    letter off. -/
def suggestFrom (choices : List String) (word : String) : Option String :=
  let size := Text.byteLength word.toList
  let lowered := Text.lower word
  if size ≤ 2 then none
  else if choices.contains lowered then none
  else
    let limit := if 4 ≤ size then 2 else 1
    let near := choices.filter fun k => difference size (Text.byteLength k.toList) ≤ 2
    let scored := near.map fun k => (k, Text.editDistance lowered k)
    (nearest (scored.filter fun s => s.2 ≤ limit)).map Prod.fst

/-- The keyword that a word was probably meant to be. -/
def suggestKeyword (word : String) : Option String := suggestFrom keywords word

end Prose
