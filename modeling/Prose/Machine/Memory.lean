import Prose.Machine.Value

/- The memory of the machine: a table of the variables under their names, and the names in
   the order in which they were declared. -/
namespace Prose.Machine

/-- A declared name with its shape and its current value. -/
structure Variable where
  name : String
  shape : String
  value : Value
  deriving DecidableEq

/-- All variables. -/
structure Memory where
  /-- What is found under a name. The entries have no order that counts. -/
  table : List (String × Variable) := []
  /-- The names, the one declared first in front. -/
  order : List String := []
  deriving DecidableEq

namespace Memory

/-- The variable of a name. -/
def find? (m : Memory) (name : String) : Option Variable := m.table.lookup name

/-- The variables in the order in which they were declared. -/
def listing (m : Memory) : List Variable := m.order.filterMap m.find?

/-- The memory with one more variable. -/
def declare (m : Memory) (name shape : String) (value : Value) : Except RunError Memory :=
  if (m.find? name).isSome then .error (.alreadyDeclared name)
  else .ok { table := (name, ⟨name, shape, value⟩) :: m.table, order := m.order ++ [name] }

/-- The memory with a new value for a declared name. -/
def store (m : Memory) (name : String) (value : Value) : Memory :=
  { m with table := m.table.map fun (key, v) =>
      if key = name then (key, { v with value := value }) else (key, v) }

/-- The memory with a value for a name. A name that is new is declared with the
    type of the value as its shape. -/
def assign (m : Memory) (name : String) (value : Value) : Except RunError Memory :=
  if (m.find? name).isSome then .ok (m.store name value)
  else m.declare name value.typeName value

/-- The value of a name. -/
def value (m : Memory) (name : String) : Except RunError Value :=
  match m.find? name with
  | some v => .ok v.value
  | none => .error (.undefined name)

end Memory

end Prose.Machine
