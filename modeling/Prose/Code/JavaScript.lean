import Prose.Code.Dialect

/- The spelling of JavaScript. Opening braces end the line before them. There are
   no types, and nothing stands for what could not be read. -/
namespace Prose.Code.JavaScript

/-- The spelling of JavaScript. -/
def dialect : Dialect where
  target := .javascript
  identifier := mangle
  typeName := none
  bytes values := "new Uint8Array([" ++ ", ".intercalate values ++ "])"
  declared d := "let " ++ mangle d.name
  constantType _ := some ""
  constantLines _ name value := ["const " ++ name ++ " = " ++ value ++ ";"]
  pointer name base :=
    let field := mangle base.name
    ["public class " ++ name ++ " // pointer", "\x7b",
     indent ("constructor(" ++ field ++ ")"), indent "\x7b",
     indent (indent ("this." ++ field ++ " = " ++ field ++ ";")), indent "\x7d", "\x7d"]
  shapeHeader s :=
    ["class " ++ mangle s.name ++
      (match s.base with | some base => " extends " ++ mangle base.name | none => "") ++ " \x7b"]
  slot s := mangle s.name ++ ";"
  procedureHeader name parameters :=
    ["function " ++ name ++ "(" ++ ", ".intercalate parameters ++ ") \x7b"]
  unreadCondition := none
  unreadStatement := none

end Prose.Code.JavaScript
