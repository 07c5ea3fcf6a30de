import Prose.Code.Convert

/- Conversion by a writer. Code is emitted line by line, each line with the indentation of
   the moment. Every construct with something inside moves the indentation in before that
   and out again behind it, by hand, and moving it out where there is none does nothing. -/
namespace Prose

namespace Code

/-- A line as far in as a level says. -/
def indentBy : Nat → String → String
  | 0, line => line
  | level + 1, line => indent (indentBy level line)

/-- The lines that were emitted, and the level of the lines to come. -/
structure Writer where
  lines : List String := []
  level : Nat := 0
  deriving DecidableEq

/-- Emitting code, which may come to something that a target cannot say. -/
abbrev Writing := StateT Writer (Except Unsupported)

namespace Writing

/-- Emits a line. -/
def emit (line : String) : Writing Unit :=
  modify fun w => { w with lines := w.lines ++ [indentBy w.level line] }

/-- Moves the indentation in. -/
def pushIndent : Writing Unit := modify fun w => { w with level := w.level + 1 }

/-- Moves the indentation out. -/
def popIndent : Writing Unit := modify fun w => { w with level := w.level - 1 }

/-- An opening brace on a line of its own. -/
def openBraces : Writing Unit := do
  emit "\x7b"
  pushIndent

/-- The closing brace. -/
def closeBraces : Writing Unit := do
  popIndent
  emit "\x7d"

/-- What a writer has emitted that started with nothing. -/
def lines (x : Writing Unit) : Except Unsupported (List String) :=
  (x.run {}).map fun done => done.2.lines

end Writing

/-- Where the brace stands that opens something. -/
inductive Braces where
  | ownLine | sameLine
  deriving DecidableEq

open Writing in
/-- Something with a title and a body. -/
def Braces.write (title : String) (body : Writing Unit) : Braces → Writing Unit
  | ownLine => do
    emit title
    openBraces
    body
    closeBraces
  | sameLine => do
    emit (title ++ " \x7b")
    pushIndent
    body
    popIndent
    emit "\x7d"

end Code

open Code Writing

namespace Target

/-- Where the braces of shapes and procedures stand. -/
def braces : Target → Braces
  | csharp => .ownLine
  | javascript => .sameLine

/-- The title of a shape. -/
def shapeTitle : Target → Shape → String
  | csharp, s => "public class " ++ mangle s.name ++
    (match s.base with | some base => " : " ++ mangle base.name | none => "")
  | javascript, s => "class " ++ mangle s.name ++
    (match s.base with | some base => " extends " ++ mangle base.name | none => "")

/-- The title of a procedure. -/
def signature : Target → Label → String
  | csharp, l => "void " ++ mangle l.marker ++ "(" ++
    ", ".intercalate (l.parameters.map fun r => CSharp.identifier r.name) ++ ")"
  | javascript, l => "function " ++ mangle l.marker ++ "(" ++
    ", ".intercalate (l.parameters.map fun r => mangle r.name) ++ ")"

/-- Writes a shape. -/
def writeShape (t : Target) (s : Shape) : Writing Unit :=
  t.braces.write (t.shapeTitle s) ((s.slots.getD []).forM fun slot => emit (t.dialect.slot slot))

/-- Writes a constant whose value is followed by something. -/
def writeConstant (name : Reference) (value : Expr) (tail : String) : Target → Writing Unit
  | csharp => Braces.ownLine.write "public partial class constants" do
    match CSharp.constantType value with
    | none => csharp.dialect.refuse value.kindName
    | some type => do
      let code ← csharp.dialect.expr value
      emit ("public const " ++ type ++ " " ++ csharp.dialect.reference name ++ " = " ++
        (code ++ tail) ++ ";")
  | javascript => do
    let code ← javascript.dialect.expr value
    emit ("const " ++ javascript.dialect.reference name ++ " = " ++ (code ++ tail) ++ ";")

/-- Writes a pointer type. -/
def writePointer (pointer : Reference) (base : TypeName) : Target → Writing Unit
  | csharp => emit ("public class " ++ csharp.dialect.reference pointer ++ "(" ++
      CSharp.typeName base ++ " " ++ CSharp.identifier base.name ++ "); // pointer")
  | javascript =>
    let field := mangle base.name
    let title := "public class " ++ javascript.dialect.reference pointer ++ " // pointer"
    Braces.ownLine.write title <| Braces.ownLine.write ("constructor(" ++ field ++ ")") <|
      emit ("this." ++ field ++ " = " ++ field ++ ";")

/-- Writes a body under the header of a procedure, if there is one. -/
def writeLabelled (t : Target) (label : Option Label) (body : Writing Unit) : Writing Unit :=
  match label with
  | none => body
  | some l => t.braces.write (t.signature l) body

mutual

/-- Writes a statement. -/
def writeStmt (t : Target) : Stmt → Writing Unit
  | .block body _ => writeStmts t body
  | .paragraph statements label _ => t.writeLabelled label (writeStmts t statements)
  | .variableDeclaration declaration _ => do
    let code ← t.dialect.variableDeclaration declaration
    emit (code ++ ";")
  | .shapeDeclaration declaration _ => t.writeShape declaration
  | .constantDeclaration name value _ => t.writeConstant name value ""
  | .unitAlias name value base _ => t.writeConstant name value (" * " ++ t.dialect.reference base)
  | .pointerDeclaration pointer base _ => t.writePointer pointer base
  | .expression value _ => do
    let code ← t.dialect.expr value
    emit (code ++ ";")
  | .conditional condition branch _ => do
    let condition ← t.dialect.expr condition
    Braces.sameLine.write ("if (" ++ condition ++ ")") (writeStmt t branch)
  | .result value _ => do
    let code ← t.dialect.expr value
    emit ("return " ++ code ++ ";")
  | .invocation marker parameters result _ => emit (t.dialect.call marker parameters result)
  | .labeled label body _ => t.writeLabelled (some label) (writeStmt t body)
  | .invalid tokens s =>
    match t.dialect.unreadStatement with
    | none => t.dialect.refuse (Stmt.invalid tokens s).kindName
    | some keep => emit (keep (Token.joinTexts tokens))

/-- Writes some statements. -/
def writeStmts (t : Target) : List Stmt → Writing Unit
  | [] => return
  | s :: ss => do
    writeStmt t s
    writeStmts t ss

end

/-- Writes a paragraph. -/
def writeParagraph (t : Target) (p : Paragraph) : Writing Unit :=
  t.writeLabelled p.label (t.writeStmts p.statements)

/-- Writes a document. -/
def writeDocument (t : Target) (n : Document) : Writing Unit := n.paragraphs.forM t.writeParagraph

end Target

end Prose
