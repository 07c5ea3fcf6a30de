import Prose.Form.Basic
import Prose.Text.Visible

/- The outline notation of forms: every part on a line of its own under the name
   of what it belongs to, four spaces a level, a comma after each part. -/
namespace Prose.Outline

/-- The lowercase hexadecimal digits of a number. -/
def hex (n : Nat) : List Char := Nat.toDigits 16 n

/-- One character of a quoted text. What cannot be shown is written by its code point. -/
def escapeChar (c : Char) : List Char :=
  if c.toNat = 0 then ['\\', '0']
  else if c = '\t' then ['\\', 't']
  else if c = '\r' then ['\\', 'r']
  else if c = '\n' then ['\\', 'n']
  else if c = '"' then ['\\', '"']
  else if c = '\\' then ['\\', '\\']
  else if Text.isVisible c then [c]
  else '\\' :: 'u' :: Char.ofNat 0x7b :: hex c.toNat ++ [Char.ofNat 0x7d]

/-- A text in its quotes. -/
def quote (s : String) : String := String.ofList ('"' :: s.toList.flatMap escapeChar ++ ['"'])

/-- A line end and the indentation of a depth, four spaces a level. -/
def newline (depth : Nat) : String := String.ofList ('\n' :: List.replicate (4 * depth) ' ')

mutual

/-- The form as it stands at a depth. -/
def renderAt (depth : Nat) : Form → String
  | .number n => toString n
  | .flag b => if b then "true" else "false"
  | .text s => quote s
  | .word s => s
  | .absent => "None"
  | .present f =>
    "Some(" ++ newline (depth + 1) ++ renderAt (depth + 1) f ++ "," ++ newline depth ++ ")"
  | .list [] => "[]"
  | .list (f :: rest) => "[" ++ renderItems (depth + 1) (f :: rest) ++ newline depth ++ "]"
  | .record name fields | .variant name fields =>
    name ++ " \x7b" ++ renderFields (depth + 1) fields ++ newline depth ++ "\x7d"
  | .wrapped name f =>
    name ++ "(" ++ newline (depth + 1) ++ renderAt (depth + 1) f ++ "," ++ newline depth ++ ")"

/-- List items, each on a line of its own. -/
def renderItems (depth : Nat) : List Form → String
  | [] => ""
  | f :: rest => newline depth ++ renderAt depth f ++ "," ++ renderItems depth rest

/-- Fields, each on a line of its own after its name. -/
def renderFields (depth : Nat) : List (String × Form) → String
  | [] => ""
  | (k, f) :: rest =>
    newline depth ++ k ++ ": " ++ renderAt depth f ++ "," ++ renderFields depth rest

end

end Prose.Outline

namespace Prose

/-- The outline of a form. -/
def Form.outline (f : Form) : String := Outline.renderAt 0 f

end Prose
