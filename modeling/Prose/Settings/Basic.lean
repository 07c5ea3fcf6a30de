import Prose.Code.Target

/- Settings: how documents are read and what they are converted to. -/
namespace Prose

/-- How documents are read. -/
structure ReadingSettings where
  /-- A line that starts with this character is a comment. -/
  commentMarker : Char := '\\'
  /-- Whether the grammar keeps the results of its rules. -/
  memoize : Bool := true
  /-- How deep conditions and possessives may be nested. -/
  maxDepth : Nat := 64
  /-- Whether sentences that the grammar rejects may still be declarations. -/
  fallback : Bool := true
  deriving DecidableEq

/-- All settings. -/
structure Settings where
  reading : ReadingSettings := {}
  target : Target := .csharp
  deriving DecidableEq

end Prose
