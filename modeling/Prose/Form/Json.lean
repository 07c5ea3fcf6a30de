import Prose.Form.Basic

/- The JSON notation of forms. Objects keep the order of their fields. An
   alternative is an object with its name as the only key; a record is just the
   object of its fields. -/
namespace Prose

/-- A JSON value. -/
inductive Json where
  | null
  | bool (value : Bool)
  | int (value : Int)
  | str (value : String)
  | arr (items : List Json)
  | obj (fields : List (String × Json))

namespace Json

/-- The hexadecimal digit of a number below sixteen. -/
def hexDigit (n : Nat) : Char := (Nat.digitChar n)

/-- One character of a quoted string. Quotes, backslashes and controls are escaped. -/
def escapeChar (c : Char) : List Char :=
  if c = '"' then ['\\', '"']
  else if c = '\\' then ['\\', '\\']
  else if c = '\n' then ['\\', 'n']
  else if c = '\r' then ['\\', 'r']
  else if c = '\t' then ['\\', 't']
  else if c.toNat = 8 then ['\\', 'b']
  else if c.toNat = 12 then ['\\', 'f']
  else if c.toNat < 32 then
    ['\\', 'u', '0', '0', hexDigit (c.toNat / 16), hexDigit (c.toNat % 16)]
  else [c]

/-- A string in its quotes. -/
def quote (s : String) : String := String.ofList ('"' :: s.toList.flatMap escapeChar ++ ['"'])

mutual

/-- The value on one line, without spaces. -/
def compact : Json → String
  | null => "null"
  | bool b => if b then "true" else "false"
  | int n => toString n
  | str s => quote s
  | arr items => "[" ++ compactItems items ++ "]"
  | obj fields => "\x7b" ++ compactFields fields ++ "\x7d"

/-- Array items with commas between them. -/
def compactItems : List Json → String
  | [] => ""
  | [v] => v.compact
  | v :: rest => v.compact ++ "," ++ compactItems rest

/-- Object fields with commas between them. -/
def compactFields : List (String × Json) → String
  | [] => ""
  | [(k, v)] => quote k ++ ":" ++ v.compact
  | (k, v) :: rest => quote k ++ ":" ++ v.compact ++ "," ++ compactFields rest

end

/-- A line end and the indentation of a depth, two spaces a level. -/
def newline (depth : Nat) : String := String.ofList ('\n' :: List.replicate (2 * depth) ' ')

mutual

/-- The value over several lines, as it stands at a depth. -/
def prettyAt (depth : Nat) : Json → String
  | null => "null"
  | bool b => if b then "true" else "false"
  | int n => toString n
  | str s => quote s
  | arr [] => "[]"
  | arr (v :: rest) =>
    "[" ++ newline (depth + 1) ++ v.prettyAt (depth + 1) ++ prettyItems (depth + 1) rest ++
      newline depth ++ "]"
  | obj [] => "\x7b\x7d"
  | obj ((k, v) :: rest) =>
    "\x7b" ++ newline (depth + 1) ++ quote k ++ ": " ++ v.prettyAt (depth + 1) ++
      prettyFields (depth + 1) rest ++ newline depth ++ "\x7d"

/-- The items after the first, each after a comma and on a line of its own. -/
def prettyItems (depth : Nat) : List Json → String
  | [] => ""
  | v :: rest => "," ++ newline depth ++ v.prettyAt depth ++ prettyItems depth rest

/-- The fields after the first, each after a comma and on a line of its own. -/
def prettyFields (depth : Nat) : List (String × Json) → String
  | [] => ""
  | (k, v) :: rest =>
    "," ++ newline depth ++ quote k ++ ": " ++ v.prettyAt depth ++ prettyFields depth rest

end

/-- The value over several lines, indented by two spaces. -/
def pretty (v : Json) : String := v.prettyAt 0

end Json

mutual

/-- The JSON value of a form. -/
def Form.toJson : Form → Json
  | .number n => .int n
  | .flag b => .bool b
  | .text s => .str s
  | .word s => .str s
  | .absent => .null
  | .present f => f.toJson
  | .list items => .arr (Form.itemsToJson items)
  | .record _ fields => .obj (Form.fieldsToJson fields)
  | .variant name fields => .obj [(name, .obj (Form.fieldsToJson fields))]
  | .wrapped name f => .obj [(name, f.toJson)]

/-- The JSON values of some forms. -/
def Form.itemsToJson : List Form → List Json
  | [] => []
  | f :: rest => f.toJson :: Form.itemsToJson rest

/-- The JSON fields of a record. -/
def Form.fieldsToJson : List (String × Form) → List (String × Json)
  | [] => []
  | (k, f) :: rest => (k, f.toJson) :: Form.fieldsToJson rest

end

end Prose
