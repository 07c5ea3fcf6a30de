/- Targets: the languages that a document can be converted to. -/
namespace Prose

/-- A language that a document can be converted to. -/
inductive Target where
  | csharp | javascript
  deriving DecidableEq

namespace Target

/-- The name of a target in messages. -/
def title : Target → String
  | csharp => "C#"
  | javascript => "JavaScript"

/-- The name of a target in settings and arguments. -/
def key : Target → String
  | csharp => "csharp"
  | javascript => "javascript"

/-- The target of a name in settings and arguments. -/
def ofKey? : String → Option Target
  | "csharp" => some csharp
  | "javascript" => some javascript
  | _ => none

@[simp] theorem ofKey?_key (t : Target) : ofKey? t.key = some t := by cases t <;> rfl

end Target

end Prose
