import Prose.Code.Target
import Prose.Tree.Node

/- Dialects: what the target languages write differently. How a document is
   converted is the same for all of them; a dialect only says how names, types,
   headers and the like are spelt, and what it has no way to say. -/
namespace Prose

/-- The spelling of one target language. -/
structure Dialect where
  target : Target
  /-- A name where a value is meant. -/
  identifier : String → String
  /-- A type name that stands alone, if the language has types. -/
  typeName : Option (TypeName → String)
  /-- Some bytes, each already written as a number. -/
  bytes : List String → String
  /-- The start of a variable declaration, without its initial value. -/
  declared : VariableDeclaration → String
  /-- The type of a constant, if the value can be one. -/
  constantType : Expr → Option String
  /-- A constant of a type with a name and a value. -/
  constantLines : String → String → String → List String
  /-- A pointer type with a name. -/
  pointer : String → TypeName → List String
  /-- What stands before the slots of a shape. -/
  shapeHeader : Shape → List String
  /-- One slot of a shape. -/
  slot : Slot → String
  /-- What stands before the body of a procedure with a name and parameters. -/
  procedureHeader : String → List String → List String
  /-- Code in place of a condition that could not be read, if there is any. -/
  unreadCondition : Option (String → String)
  /-- A line in place of a statement that could not be read, if there is any. -/
  unreadStatement : Option (String → String)

namespace Code

/-- A name as an identifier: separators become underscores. -/
def mangle (name : String) : String :=
  String.ofList (name.toList.map fun c =>
    if c = ' ' ∨ c = '-' ∨ c = '(' ∨ c = ')' ∨ c = '\'' then '_' else c)

/-- The sign of an operation on numbers. -/
def mathSign : MathOp → String
  | .plus => "+"
  | .minus => "-"
  | .multiply => "*"
  | .divide => "/"

/-- The sign of a comparison, if it could be read. -/
def comparisonSign : Comparison → Option String
  | .equals => some "=="
  | .notEquals => some "!="
  | .less => some "<"
  | .lessOrEquals => some "<="
  | .greater => some ">"
  | .greaterOrEquals => some ">="
  | .invalid => none

/-- One level of indentation. -/
def indent (line : String) : String := "    " ++ line

end Code

end Prose
