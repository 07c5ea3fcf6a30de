import Prose.Settings.Basic
import Prose.Toml.Read

/- Settings from a TOML document. What is missing keeps its usual value and what is
   unknown is ignored; what has the wrong type makes the document invalid. A group
   of settings may also be written as an array of its values in order. -/
namespace Prose.Settings

open Toml

/-- The usual value of a setting that is not there, and otherwise the decoded one. -/
def orUsual {α : Type} (usual : α) (decode : Value → Option α) : Option Value → Option α
  | none => some usual
  | some v => decode v

/-- A text of one character. -/
def decodeChar : Value → Option Char
  | .string [c] => some c
  | _ => none

/-- A truth value. -/
def decodeFlag : Value → Option Bool
  | .boolean b => some b
  | _ => none

/-- A number that is not negative. -/
def decodeCount : Value → Option Nat
  | .integer n => if 0 ≤ n then some n.toNat else none
  | _ => none

/-- How documents are read, from the values of the four settings. -/
def readingOf (marker memoize depth fallback : Option Value) : Option ReadingSettings := do
  let usual : ReadingSettings := {}
  return { commentMarker := ← orUsual usual.commentMarker decodeChar marker
           memoize := ← orUsual usual.memoize decodeFlag memoize
           maxDepth := ← orUsual usual.maxDepth decodeCount depth
           fallback := ← orUsual usual.fallback decodeFlag fallback }

/-- The group of settings for reading. A date has no settings in it. -/
def decodeReading : Value → Option ReadingSettings
  | .table _ es =>
    readingOf (es.lookup "comment_marker".toList) (es.lookup "memoize".toList)
      (es.lookup "max_depth".toList) (es.lookup "fallback".toList)
  | .array vs | .tables vs => readingOf vs[0]? vs[1]? vs[2]? vs[3]?
  | .date => some {}
  | _ => none

/-- Whether a value is an array or a table with nothing in it. -/
def isEmptyValue : Value → Bool
  | .array [] | .tables [] | .table _ [] => true
  | _ => false

/-- A target by its name, or as a table of one key with nothing under it. -/
def decodeTarget : Value → Option Target
  | .string s => Target.ofKey? (String.ofList s)
  | .table _ [(name, v)] => if isEmptyValue v then Target.ofKey? (String.ofList name) else none
  | _ => none

/-- The group of settings for output. -/
def decodeOutput : Value → Option Target
  | .table _ es => orUsual Target.csharp decodeTarget (es.lookup "target".toList)
  | .array vs | .tables vs => orUsual Target.csharp decodeTarget vs[0]?
  | .date => some .csharp
  | _ => none

/-- All settings of a document. -/
def ofEntries (es : Entries) : Option Settings := do
  return { reading := ← orUsual {} decodeReading (es.lookup "parser".toList)
           target := ← orUsual Target.csharp decodeOutput (es.lookup "output".toList) }

/-- The settings that a text says. -/
def parse (text : String) : Option Settings := do ofEntries (← Toml.read text)

end Prose.Settings
