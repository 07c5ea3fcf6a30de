import Prose.Code.Dialect

/- The spelling of C#. Braces that open a class or a procedure stand on lines of
   their own. Constants need a type, and what could not be read is kept as an
   error directive or a comment. -/
namespace Prose.Code.CSharp

/-- Names that need a sign in front because the language has a use for them. -/
def identifier (name : String) : String :=
  if name = "byte" ∨ name = "string" then "@" ++ name else mangle name

/-- A type name; collections are arrays. -/
def typeName (t : TypeName) : String :=
  if t.collection then mangle t.name ++ "[]" else mangle t.name

/-- The type of a constant. Only literals can be constants. -/
def constantType : Expr → Option String
  | .int .. | .inches .. => some "long"
  | .text .. => some "string"
  | .ratio .. => some "double"
  | .null .. => some "object"
  | .bytes .. => some "byte[]"
  | _ => none

/-- The spelling of C#. -/
def dialect : Dialect where
  target := .csharp
  identifier := identifier
  typeName := some typeName
  bytes values := "new byte[] \x7b " ++ ", ".intercalate values ++ " \x7d"
  declared d := typeName d.type ++ " " ++ identifier d.name
  constantType := constantType
  constantLines type name value :=
    ["public partial class constants", "\x7b",
     indent ("public const " ++ type ++ " " ++ name ++ " = " ++ value ++ ";"), "\x7d"]
  pointer name base :=
    ["public class " ++ name ++ "(" ++ typeName base ++ " " ++ identifier base.name ++
      "); // pointer"]
  shapeHeader s :=
    ["public class " ++ mangle s.name ++
      (match s.base with | some base => " : " ++ mangle base.name | none => ""), "\x7b"]
  slot s := "public object " ++ identifier s.name ++ ";"
  procedureHeader name parameters :=
    ["void " ++ name ++ "(" ++ ", ".intercalate parameters ++ ")", "\x7b"]
  unreadCondition := some fun code => "/* " ++ code ++ " */"
  unreadStatement := some fun text => "#error " ++ text

end Prose.Code.CSharp
