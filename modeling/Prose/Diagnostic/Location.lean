import Prose.Text.Bytes

/- Locations: a byte offset as a line and a column. Columns count characters, so
   that text outside the basic alphabet still lines up. -/
namespace Prose

/-- A named text. -/
structure SourceText where
  name : String
  text : String

/-- Line and column, both from one, with the line itself. -/
structure Location where
  file : String
  line : Nat
  column : Nat
  lineText : String

/-- The lines of a text without their line breaks. There is always one. -/
def linesOf : List Char → List (List Char)
  | [] => [[]]
  | c :: rest =>
    if c = '\n' then [] :: linesOf rest
    else match linesOf rest with
      | line :: later => (c :: line) :: later
      | [] => [[c]]

/-- A line without the carriage returns at its end. -/
def dropReturns (line : List Char) : List Char := (line.reverse.dropWhile (· == '\r')).reverse

/-- How many characters of a line start before byte `n` of it. -/
def charsBefore : Nat → List Char → Nat
  | _, [] => 0
  | n, c :: cs => if n = 0 then 0 else charsBefore (n - c.utf8Size) cs + 1

/-- The line in which byte `offset` lies, by its index, with the offset inside
    it. An offset behind the text belongs to the last line. -/
def lineAt (index : Nat) (offset : Nat) : List (List Char) → Nat × Nat × List Char
  | [] => (index, offset, [])
  | [line] => (index, offset, line)
  | line :: next :: later =>
    if offset ≤ Text.byteLength line then (index, offset, line)
    else lineAt (index + 1) (offset - (Text.byteLength line + 1)) (next :: later)

namespace SourceText

/-- A line by its number from one, if there is such a line. -/
def line? (s : SourceText) (number : Nat) : Option String :=
  match number with
  | 0 => none
  | n + 1 => (linesOf s.text.toList)[n]?.map fun l => String.ofList (dropReturns l)

/-- Where a byte offset is. -/
def locate (s : SourceText) (offset : Nat) : Location :=
  let (index, inside, line) := lineAt 0 offset (linesOf s.text.toList)
  let content := dropReturns line
  { file := s.name
    line := index + 1
    column := charsBefore (min inside (Text.byteLength content)) content + 1
    lineText := String.ofList content }

end SourceText

end Prose
