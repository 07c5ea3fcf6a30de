import Prose.Toml.Scalar

/- Reading TOML documents. The lines are read first; the document is then built up
   from them, which is where a key that is named twice is found. -/
namespace Prose.Toml

/-! ## Keys -/

/-- A character of a key without quotes. -/
def isBareKey (c : Char) : Bool :=
  Text.isDecimalDigit c || ('a' ≤ c && c ≤ 'z') || ('A' ≤ c && c ≤ 'Z') || c == '_' || c == '-'

/-- One name of a key. -/
def simpleKey (cs : List Char) : Option (List Char × List Char) :=
  match cs with
  | '"' :: _ | '\'' :: _ => shortString cs
  | _ =>
    let name := cs.takeWhile isBareKey
    if name.isEmpty then none else some (name, cs.drop name.length)

/-- How deep values and keys may be nested. -/
def depthLimit : Nat := 79

/-- A key of at most `limit` names with dots between them, and the spaces around it. -/
def dottedKey : Nat → Reader Path
  | 0, _ => none
  | limit + 1, cs => do
    let (name, rest) ← simpleKey (skipSpaces cs)
    match skipSpaces rest with
    | '.' :: more =>
      let (path, rest) ← dottedKey limit more
      return (name :: path, rest)
    | rest => return ([name], rest)

/-- A key. -/
def key : Reader Path := dottedKey depthLimit

/-! ## Values -/

/-- The text without blanks, line breaks and comments at its start. -/
def skipLayout : Nat → List Char → List Char
  | 0, cs => cs
  | fuel + 1, cs =>
    let cs := skipSpaces cs
    match lineBreak (skipComment cs) with
    | some rest => skipLayout fuel rest
    | none => cs

/-- The text without any layout at its start. -/
def afterLayout (cs : List Char) : List Char := skipLayout (cs.length + 1) cs

/-- The rest of an array whose items are read in a given way. -/
def arrayItems (item : Reader Value) : Nat → Reader (List Value)
  | 0, _ => none
  | fuel + 1, cs =>
    match afterLayout cs with
    | ']' :: rest => some ([], rest)
    | cs => do
      let (v, rest) ← item cs
      match afterLayout rest with
      | ',' :: rest =>
        let (vs, rest) ← arrayItems item fuel rest
        return (v :: vs, rest)
      | ']' :: rest => return ([v], rest)
      | _ => none

/-- A key, an equals sign and a value that is read in a given way. -/
def keyValue (item : Reader Value) (cs : List Char) : Option ((Path × Value) × List Char) := do
  let (path, rest) ← key cs
  let rest ← exactly ['='] rest
  let (v, rest) ← item (skipSpaces rest)
  return ((path, v), rest)

/-- The rest of an inline table that is not empty, from one of its keys on. -/
def inlineFields (item : Reader Value) : Nat → Reader (List (Path × Value))
  | 0, _ => none
  | fuel + 1, cs => do
    let (field, rest) ← keyValue item cs
    match skipSpaces rest with
    | ',' :: rest =>
      let (fields, rest) ← inlineFields item fuel rest
      return (field :: fields, rest)
    | '\x7d' :: rest => return ([field], rest)
    | _ => none

/-- An inline table, behind its opening brace. -/
def inlineBody (item : Reader Value) (cs : List Char) : Option (Value × List Char) :=
  match skipSpaces cs with
  | '\x7d' :: rest => some (.table .inline [], rest)
  | cs => do
    let (fields, rest) ← inlineFields item (cs.length + 1) cs
    return (← inlineTable fields, rest)

/-- A value that is no array and no table. -/
def scalar (cs : List Char) : Option (Value × List Char) :=
  match cs with
  | '"' :: _ | '\'' :: _ => do
    let (s, rest) ← string cs
    return (.string s, rest)
  | 't' :: 'r' :: 'u' :: 'e' :: rest => some (.boolean true, rest)
  | 'f' :: 'a' :: 'l' :: 's' :: 'e' :: rest => some (.boolean false, rest)
  | _ => numeric cs

/-- A value with at most `limit` levels of arrays and inline tables. -/
def valueWithin : Nat → Reader Value
  | 0, cs => scalar cs
  | limit + 1, cs =>
    match cs with
    | '[' :: rest => do
      let (vs, rest) ← arrayItems (valueWithin limit) (rest.length + 1) rest
      return (.array vs, rest)
    | '\x7b' :: rest => inlineBody (valueWithin limit) rest
    | _ => scalar cs

/-- A value. -/
def value : Reader Value := valueWithin depthLimit

/-! ## Documents -/

/-- One line that says something, without what may stand behind it. -/
def line (cs : List Char) : Option (Line × List Char) :=
  match cs with
  | '[' :: '[' :: rest => do
    let (path, rest) ← key rest
    return (.listHeader path, ← exactly [']', ']'] rest)
  | '[' :: rest => do
    let (path, rest) ← key rest
    return (.header path, ← exactly [']'] rest)
  | _ => do
    let ((path, v), rest) ← keyValue value cs
    return (.entry path v, rest)

/-- All lines that say something. -/
def lines : Nat → List Char → Option (List Line)
  | 0, _ => none
  | fuel + 1, cs =>
    match lineEnd cs with
    | some [] => some []
    | some rest => lines fuel rest
    | none => do
      let (first, rest) ← line (skipSpaces cs)
      let rest ← lineEnd rest
      let later ← lines fuel rest
      return first :: later

/-- The text without a byte order mark at its start. -/
def skipMark : List Char → List Char
  | c :: rest => if c.toNat = 0xfeff then rest else c :: rest
  | [] => []

/-- The entries of a document. -/
def read (text : String) : Option Entries := do
  let cs := skipMark text.toList
  let ls ← lines (cs.length + 1) cs
  let sheet ← ls.foldlM Sheet.add {}
  return sheet.entries

end Prose.Toml
