import Prose.Text.Integer
import Prose.Toml.Table

/- The parts of TOML that do not nest: blanks, comments, strings, numbers and dates.
   A reader takes a beginning of the text and gives what it means with the rest of
   the text, or nothing where the text does not begin so. -/
namespace Prose.Toml

open Prose.Text

/-- Reads a beginning of a text. -/
abbrev Reader (α : Type) := List Char → Option (α × List Char)

/-- A space or a tab. -/
def isSpace (c : Char) : Bool := c == ' ' || c == '\t'

/-- The text without its leading spaces and tabs. -/
def skipSpaces (cs : List Char) : List Char := cs.dropWhile isSpace

/-- Whether a character may stand in a comment. Controls may not, the tab apart. -/
def isPlain (c : Char) : Bool := c == '\t' || (32 ≤ c.toNat && c.toNat != 127)

/-- A given beginning. -/
def exactly (expected : List Char) (cs : List Char) : Option (List Char) :=
  if expected.isPrefixOf cs then some (cs.drop expected.length) else none

/-- The rest of the text behind a line break. -/
def lineBreak : List Char → Option (List Char)
  | '\n' :: rest => some rest
  | '\r' :: '\n' :: rest => some rest
  | _ => none

/-- The text without a comment at its start. -/
def skipComment : List Char → List Char
  | '#' :: rest => rest.dropWhile isPlain
  | cs => cs

/-- The rest of the text behind the end of a line: spaces, perhaps a comment, and
    then a line break or the end of the text. -/
def lineEnd (cs : List Char) : Option (List Char) :=
  match skipComment (skipSpaces cs) with
  | [] => some []
  | rest => lineBreak rest

/-! ## Strings -/

/-- The number that some hexadecimal digits spell. -/
def hexValue (ds : List Char) : Nat := ds.foldl (fun n c => 16 * n + hexDigitValue c) 0

/-- The character with a code point of so many hexadecimal digits. -/
def codePoint (digits : Nat) (cs : List Char) : Option (Char × List Char) :=
  let ds := cs.take digits
  let n := hexValue ds
  if ds.length = digits ∧ ds.all isHexDigit ∧ n.isValidChar then
    some (Char.ofNat n, cs.drop digits)
  else none

/-- What stands behind a backslash. -/
def escaped : Reader Char
  | 'b' :: rest => some (Char.ofNat 8, rest)
  | 't' :: rest => some ('\t', rest)
  | 'n' :: rest => some ('\n', rest)
  | 'f' :: rest => some (Char.ofNat 12, rest)
  | 'r' :: rest => some ('\r', rest)
  | '"' :: rest => some ('"', rest)
  | '\\' :: rest => some ('\\', rest)
  | 'u' :: rest => codePoint 4 rest
  | 'U' :: rest => codePoint 8 rest
  | _ => none

/-- The rest of a string in double quotes. -/
def basicBody : Nat → Reader (List Char)
  | 0, _ => none
  | fuel + 1, cs =>
    match cs with
    | [] => none
    | '"' :: rest => some ([], rest)
    | '\\' :: rest => do
      let (c, rest) ← escaped rest
      let (s, rest) ← basicBody fuel rest
      return (c :: s, rest)
    | c :: rest =>
      if isPlain c then do
        let (s, rest) ← basicBody fuel rest
        return (c :: s, rest)
      else none

/-- The rest of a string in single quotes. -/
def literalBody : Reader (List Char)
  | [] => none
  | '\'' :: rest => some ([], rest)
  | c :: rest =>
    if isPlain c then do
      let (s, rest) ← literalBody rest
      return (c :: s, rest)
    else none

/-- The text behind a backslash at the end of a line: all blanks and line breaks are
    left out. -/
def skipFolded (fuel : Nat) (cs : List Char) : List Char :=
  match fuel with
  | 0 => cs
  | fuel + 1 =>
    let cs := skipSpaces cs
    match lineBreak cs with
    | some rest => skipFolded fuel rest
    | none => cs

/-- The rest of a string in triple quotes. One or two quotes in a row belong to the
    string, also right before the three that end it. -/
def longBody (quote : Char) (escapes : Bool) : Nat → Reader (List Char)
  | 0, _ => none
  | fuel + 1, cs =>
    let quotes := (cs.takeWhile (· == quote)).length
    -- two quotes of the string and three that end it are the most in a row
    if 5 < quotes then none
    else if 3 ≤ quotes then some (List.replicate (quotes - 3) quote, cs.drop quotes)
    else match cs with
    | [] => none
    | c :: rest =>
      if escapes && c == '\\' then
        match lineBreak (skipSpaces rest) with
        | some folded => longBody quote escapes fuel (skipFolded folded.length folded)
        | none => do
          let (c, rest) ← escaped rest
          let (s, rest) ← longBody quote escapes fuel rest
          return (c :: s, rest)
      else match lineBreak cs with
      | some rest => do
        let (s, rest) ← longBody quote escapes fuel rest
        return ('\n' :: s, rest)
      | none =>
        if isPlain c then do
          let (s, rest) ← longBody quote escapes fuel rest
          return (c :: s, rest)
        else none

/-- A string in triple quotes, behind them. A line break at its start is left out. -/
def longString (quote : Char) (escapes : Bool) (cs : List Char) : Option (List Char × List Char) :=
  longBody quote escapes (cs.length + 1) ((lineBreak cs).getD cs)

/-- A string on one line. -/
def shortString : Reader (List Char)
  | '"' :: rest => basicBody (rest.length + 1) rest
  | '\'' :: rest => literalBody rest
  | _ => none

/-- A string of any sort. -/
def string (cs : List Char) : Option (List Char × List Char) :=
  match cs with
  | '"' :: '"' :: '"' :: rest => longString '"' true rest
  | '\'' :: '\'' :: '\'' :: rest => longString '\'' false rest
  | _ => shortString cs

/-! ## Numbers -/

/-- Digits of a class with single underscores between them, without the underscores. -/
def moreDigits (isDigit : Char → Bool) : Reader (List Char)
  | '_' :: c :: rest =>
    if isDigit c then do
      let (ds, rest) ← moreDigits isDigit rest
      return (c :: ds, rest)
    else none
  | ['_'] => none
  | c :: rest =>
    if isDigit c then do
      let (ds, rest) ← moreDigits isDigit rest
      return (c :: ds, rest)
    else some ([], c :: rest)
  | [] => some ([], [])

/-- One or more digits of a class with single underscores between them. -/
def digits (isDigit : Char → Bool) : Reader (List Char)
  | [] => none
  | c :: rest =>
    if isDigit c then do
      let (ds, rest) ← moreDigits isDigit rest
      return (c :: ds, rest)
    else none

/-- A sign and the text behind it. Without a sign it is positive. -/
def sign : List Char → Bool × List Char
  | '-' :: rest => (true, rest)
  | '+' :: rest => (false, rest)
  | cs => (false, cs)

/-- The digits of a decimal number. A zero stands alone. -/
def decimalDigits : Reader (List Char)
  | '0' :: rest => some (['0'], rest)
  | cs => digits isDecimalDigit cs

/-- The value of digits in a base. -/
def valueIn (base : Nat) (ds : List Char) : Nat :=
  ds.foldl (fun n c => base * n + hexDigitValue c) 0

/-- A number that fits in 64 bits. -/
def fitting (n : Int) : Option Value := if fitsInteger n then some (.integer n) else none

/-- A number of a base, behind the letter that says which. -/
def basedInteger (base : Nat) (isDigit : Char → Bool) (cs : List Char) :
    Option (Value × List Char) := do
  let (ds, rest) ← digits isDigit cs
  return (← fitting (valueIn base ds), rest)

/-- A whole number. -/
def integer (cs : List Char) : Option (Value × List Char) :=
  match cs with
  | '0' :: 'x' :: rest => basedInteger 16 isHexDigit rest
  | '0' :: 'o' :: rest => basedInteger 8 (fun c => '0' ≤ c && c ≤ '7') rest
  | '0' :: 'b' :: rest => basedInteger 2 (fun c => c == '0' || c == '1') rest
  | _ => do
    let (negative, rest) := sign cs
    let (ds, rest) ← decimalDigits rest
    let n : Int := valueIn 10 ds
    return (← fitting (if negative then -n else n), rest)

/-- The least integer that is too great for a float of 64 bits. -/
def floatBound : Nat := ((1 <<< 54) - 1) <<< 970

/-- Whether `m` times ten to the power `e` is too great for a float. -/
def overflowsFloat (m : Nat) (e : Int) : Bool :=
  if m = 0 then false
  else
    let size : Int := (Nat.toDigits 10 m).length + e
    -- far from the bound the number of digits decides
    if 400 < size then true
    else if size < 300 then false
    else if 0 ≤ e then floatBound ≤ m * Nat.pow 10 e.toNat
    else floatBound * Nat.pow 10 (-e).toNat ≤ m

/-- The exponent of a float, if there is one. -/
def exponent (cs : List Char) : Option (Option Int × List Char) :=
  match cs with
  | c :: rest =>
    if c == 'e' || c == 'E' then do
      let (negative, rest) := sign rest
      let (ds, rest) ← digits isDecimalDigit rest
      let n : Int := valueIn 10 ds
      return (some (if negative then -n else n), rest)
    else some (none, cs)
  | [] => some (none, cs)

/-- The fraction of a float, if there is one. -/
def fraction (cs : List Char) : Option (Option (List Char) × List Char) :=
  match cs with
  | '.' :: rest => do
    let (ds, rest) ← digits isDecimalDigit rest
    return (some ds, rest)
  | _ => some (none, cs)

/-- A float by its digits. A positive one that is too great is refused. -/
def decimalFloat (cs : List Char) : Option (Value × List Char) := do
  let (negative, rest) := sign cs
  let (whole, rest) ← decimalDigits rest
  let (part, rest) ← fraction rest
  let (power, rest) ← exponent rest
  if part.isNone && power.isNone then none
  else
    let part := part.getD []
    let overflow := overflowsFloat (valueIn 10 (whole ++ part)) (power.getD 0 - part.length)
    if overflow && !negative then none else return (.float, rest)

/-- A float by its name. -/
def namedFloat (cs : List Char) : Option (Value × List Char) := do
  let (_, rest) := sign cs
  match rest with
  | 'i' :: 'n' :: 'f' :: rest => return (.float, rest)
  | 'n' :: 'a' :: 'n' :: rest => return (.float, rest)
  | _ => none

/-! ## Dates and times -/

/-- A number of exactly `count` digits within bounds. -/
def fixedNumber (count low high : Nat) (cs : List Char) : Option (Nat × List Char) :=
  let ds := cs.take count
  let n := digitsValue 0 ds
  if ds.length = count ∧ ds.all isDecimalDigit ∧ low ≤ n ∧ n ≤ high then some (n, cs.drop count)
  else none

/-- The number of days of a month. -/
def daysOf (year month : Nat) : Nat :=
  if month = 2 then
    if year % 4 = 0 ∧ (year % 100 ≠ 0 ∨ year % 400 = 0) then 29 else 28
  else if month = 4 ∨ month = 6 ∨ month = 9 ∨ month = 11 then 30 else 31

/-- The rest of the text behind a day of the calendar. -/
def calendarDay (cs : List Char) : Option (List Char) := do
  let (year, cs) ← fixedNumber 4 0 9999 cs
  let cs ← exactly ['-'] cs
  let (month, cs) ← fixedNumber 2 1 12 cs
  let cs ← exactly ['-'] cs
  let (_, cs) ← fixedNumber 2 1 (daysOf year month) cs
  return cs

/-- The rest of the text behind a fraction of a second, if there is one. -/
def secondFraction (cs : List Char) : Option (List Char) :=
  match cs with
  | '.' :: c :: rest => if isDecimalDigit c then some (rest.dropWhile isDecimalDigit) else none
  | ['.'] => none
  | _ => some cs

/-- The rest of the text behind a time of day. -/
def timeOfDay (cs : List Char) : Option (List Char) := do
  let (_, cs) ← fixedNumber 2 0 23 cs
  let cs ← exactly [':'] cs
  let (_, cs) ← fixedNumber 2 0 59 cs
  let cs ← exactly [':'] cs
  let (_, cs) ← fixedNumber 2 0 60 cs
  secondFraction cs

/-- The rest of the text behind the offset of a time zone, if there is one. -/
def zoneOffset (cs : List Char) : Option (List Char) :=
  match cs with
  | 'Z' :: rest | 'z' :: rest => some rest
  | '+' :: rest | '-' :: rest => do
    let (_, cs) ← fixedNumber 2 0 23 rest
    let cs ← exactly [':'] cs
    let (_, cs) ← fixedNumber 2 0 59 cs
    return cs
  | _ => some cs

/-- Whether a text starts with the hour and the colon of a time of day. -/
def startsTime (cs : List Char) : Bool :=
  match fixedNumber 2 0 23 cs with
  | some (_, ':' :: _) => true
  | _ => false

/-- A day, a time, or both. A blank behind a day announces a time only if one follows. -/
def dateTime (cs : List Char) : Option (Value × List Char) :=
  match calendarDay cs with
  | some rest =>
    match rest with
    | c :: time =>
      if (c == 'T' || c == 't' || c == ' ') && startsTime time then do
        return (.date, ← zoneOffset (← timeOfDay time))
      else some (.date, rest)
    | [] => some (.date, [])
  | none => do return (.date, ← timeOfDay cs)

/-- A date or a number. -/
def numeric (cs : List Char) : Option (Value × List Char) :=
  match dateTime cs with
  | some r => some r
  | none =>
    match decimalFloat cs with
    | some r => some r
    | none =>
      match namedFloat cs with
      | some r => some r
      | none => integer cs

end Prose.Toml
