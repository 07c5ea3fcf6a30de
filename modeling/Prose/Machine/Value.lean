import Prose.Text.Integer
import Prose.Tree.Basic

/- Values of running documents. Numbers have 64 bits: a result that does not fit is
   an error and never wraps around. -/
namespace Prose.Machine

/-- A value. -/
inductive Value where
  | null
  | int (n : Int)
  | text (s : String)
  | bytes (bs : List UInt8)
  | bool (b : Bool)
  deriving DecidableEq

/-- The name of a value's type. -/
def Value.typeName : Value → String
  | null => "null"
  | int _ => "number"
  | text _ => "string"
  | bytes _ => "bytes"
  | bool _ => "boolean"

/-- How a value is shown. -/
def Value.show : Value → String
  | null => "null"
  | int n => toString n
  | text s => "\"" ++ s ++ "\""
  | bytes bs => String.ofList ('$' :: bs.flatMap Text.showByte)
  | bool b => if b then "true" else "false"

/-- What documents may say but the machine cannot do. -/
inductive Feature where
  | paragraphLabel | shapeDeclaration | unitAlias | pointerDeclaration | result
  | invocationStatement | labeledStatement | ratio | slotAccess | invocationExpression
  deriving DecidableEq

/-- The name of a feature in messages. -/
def Feature.title : Feature → String
  | paragraphLabel => "Paragraph labels"
  | shapeDeclaration => "Shape declaration statements"
  | unitAlias => "Unit alias declaration statements"
  | pointerDeclaration => "Pointer declaration statements"
  | result => "Result statements"
  | invocationStatement => "Invocation statements"
  | labeledStatement => "Labeled statements"
  | ratio => "Ratio literals"
  | slotAccess => "Slot accesses"
  | invocationExpression => "Invocation expressions"

/-- Why a run stopped. -/
inductive RunError where
  | alreadyDeclared (name : String)
  | undefined (name : String)
  | unsupported (what : Feature)
  /-- Something of a kind that could not be read. -/
  | invalid (kind code : String)
  | typeMismatch (operation left right : String)
  | notCondition (type : String)
  | divisionByZero
  | overflow (operation : String)
  deriving DecidableEq

/-- The message of an error. -/
def RunError.message : RunError → String
  | alreadyDeclared name => "Variable '" ++ name ++ "' is already declared."
  | undefined name => "Variable '" ++ name ++ "' is not defined."
  | unsupported what => what.title ++ " are not yet supported."
  | invalid kind code => "Invalid " ++ kind ++ " \x60" ++ code ++ "\x60"
  | typeMismatch operation left right =>
    "Cannot apply " ++ operation ++ " to " ++ left ++ " and " ++ right ++ "."
  | notCondition type => "Condition must be a boolean, got " ++ type ++ "."
  | divisionByZero => "Division by zero."
  | overflow operation => "Integer overflow in " ++ operation ++ "."

/-- The name of an operation in messages. -/
def operationName : MathOp → String
  | .plus => "addition"
  | .minus => "subtraction"
  | .multiply => "multiplication"
  | .divide => "division"

/-- The exact result of an operation on numbers. Division is cut off toward zero. -/
def exactResult : MathOp → Int → Int → Int
  | .plus, a, b => a + b
  | .minus, a, b => a - b
  | .multiply, a, b => a * b
  | .divide, a, b => Int.tdiv a b

/-- An operation on numbers. The result has to fit. -/
def integerMath (op : MathOp) (a b : Int) : Except RunError Int :=
  if op = .divide ∧ b = 0 then .error .divisionByZero
  else
    let n := exactResult op a b
    if Text.fitsInteger n then .ok n else .error (.overflow (operationName op))

/-- An operation on values. Texts can be added to each other. -/
def math (op : MathOp) : Value → Value → Except RunError Value
  | .int a, .int b => (integerMath op a b).map .int
  | .text a, .text b =>
    if op = .plus then .ok (.text (a ++ b))
    else .error (.typeMismatch (operationName op) "string" "string")
  | a, b => .error (.typeMismatch (operationName op) a.typeName b.typeName)

/-- The order of two values, if they can be ordered: numbers by size, texts by
    their characters. -/
def order : Value → Value → Option Ordering
  | .int a, .int b => some (compare a b)
  | .text a, .text b => some (compare a b)
  | _, _ => none

/-- Whether the order is one that a comparison asks for. -/
def holds (accepts : Ordering → Bool) (a b : Value) : Except RunError Value :=
  match order a b with
  | some o => .ok (.bool (accepts o))
  | none => .error (.typeMismatch "comparison" a.typeName b.typeName)

/-- A comparison of values. Any two values are equal or not; only some are ordered. -/
def compareValues (op : Comparison) (a b : Value) : Except RunError Value :=
  match op with
  | .equals => .ok (.bool (decide (a = b)))
  | .notEquals => .ok (.bool (decide (a ≠ b)))
  | .less => holds Ordering.isLT a b
  | .lessOrEquals => holds Ordering.isLE a b
  | .greater => holds Ordering.isGT a b
  | .greaterOrEquals => holds Ordering.isGE a b
  | .invalid => .error (.invalid "comparison" (a.show ++ " ? " ++ b.show))

end Prose.Machine
