import Prose.Diagnostic.Location
import Prose.Text.Blank

/- Reports for a terminal: the message, the place, the line with a mark under the
   column, and a suggestion if there is one. Colours are terminal escapes. -/
namespace Prose

/-- The colours of a report. -/
inductive Colour where
  | red | blue | yellow | green | bold | plain

/-- The terminal escape that switches to a colour. -/
def Colour.escape : Colour → String
  | red => "\x1b[1;31m"
  | blue => "\x1b[1;34m"
  | yellow => "\x1b[1;33m"
  | green => "\x1b[1;32m"
  | bold => "\x1b[1m"
  | plain => "\x1b[0m"

/-- A text in a colour. -/
def Colour.paint (c : Colour) (s : String) : String := c.escape ++ s ++ Colour.plain.escape

/-- Some spaces. -/
def spaces (n : Nat) : String := String.ofList (List.replicate n ' ')

/-- The report of a message at a place. Errors are red and all else is yellow. -/
def renderReport (severity message : String) (place : Location) (suggestion : Option String) : String :=
  let colour := if severity = "error" then Colour.red else Colour.yellow
  let number := toString place.line
  let margin := "  " ++ spaces number.length ++ " " ++ Colour.blue.paint "|"
  let line := String.ofList (Text.trimEnd place.lineText.toList)
  let lines :=
    [colour.paint severity ++ ": " ++ Colour.bold.paint message,
     "  " ++ Colour.blue.paint "-->" ++ " " ++ place.file ++ ":" ++ number ++ ":" ++
       toString place.column,
     margin,
     "  " ++ Colour.blue.paint number ++ " " ++ Colour.blue.paint "|" ++ " " ++ line,
     margin ++ " " ++ spaces (place.column - 1) ++ colour.paint "^--- here"] ++
    (suggestion.map fun word =>
      "  " ++ Colour.green.paint "help" ++ ": did you mean \x60" ++ Colour.yellow.paint word ++
        "\x60?").toList
  String.join (lines.map (· ++ "\n"))

end Prose
