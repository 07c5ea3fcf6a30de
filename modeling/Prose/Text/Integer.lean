import Prose.Text.Alphabet

/- Whole numbers in texts. A number has 64 bits; what does not fit is no number. -/
namespace Prose.Text

/-- The least number. -/
def minInteger : Int := -9223372036854775808

/-- The greatest number. -/
def maxInteger : Int := 9223372036854775807

/-- Whether a number fits in 64 bits. -/
def fitsInteger (n : Int) : Bool := minInteger ≤ n && n ≤ maxInteger

/-- The value of a digit. -/
def digitValue (c : Char) : Nat := c.toNat - '0'.toNat

/-- The value of a run of digits after `high`. -/
def digitsValue (high : Nat) (ds : List Char) : Nat :=
  ds.foldl (fun n c => 10 * n + digitValue c) high

/-- The value of a non-empty run of digits. -/
def readDigits (ds : List Char) : Option Nat :=
  if ds ≠ [] ∧ ds.all isDecimalDigit then some (digitsValue 0 ds) else none

/-- The number that a whole text spells, with or without a sign. -/
def readInteger (s : String) : Option Int :=
  let value : Option Int := match s.toList with
    | '-' :: ds => (readDigits ds).map fun n => -(n : Int)
    | '+' :: ds => (readDigits ds).map Int.ofNat
    | ds => (readDigits ds).map Int.ofNat
  value.filter fitsInteger

/-- The value of a hexadecimal digit. -/
def hexDigitValue (c : Char) : Nat :=
  if isDecimalDigit c then c.toNat - '0'.toNat
  else if 'a' ≤ c then c.toNat - 'a'.toNat + 10
  else c.toNat - 'A'.toNat + 10

/-- The bytes of an even number of hexadecimal digits. -/
def hexPairs : List Char → List UInt8
  | high :: low :: rest =>
    UInt8.ofNat (16 * hexDigitValue high + hexDigitValue low) :: hexPairs rest
  | _ => []

/-- The bytes of some hexadecimal digits. An odd number of them gets a zero in front. -/
def readBytes (ds : List Char) : Option (List UInt8) :=
  if ds.all isHexDigit then some (hexPairs (if ds.length % 2 = 1 then '0' :: ds else ds)) else none

/-- The two lowercase hexadecimal digits of a byte. -/
def showByte (b : UInt8) : List Char := [Nat.digitChar (b.toNat / 16), Nat.digitChar (b.toNat % 16)]

end Prose.Text
