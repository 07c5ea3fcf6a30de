import Prose.Tree.Basic

/- Drafts: a paragraph in the making. Headers at the start of a paragraph merge into
   its label until one of them has a body; a header that comes later labels a
   statement of its own. -/
namespace Prose

/-- A paragraph in the making. -/
structure Draft where
  label : Option Label := none
  statements : List Stmt := []
  /-- Whether a further header would still belong to the label. -/
  isOpen : Bool := false

/-- A label with one more header. Markers add up; of parameters and results the
    first ones count. -/
def Label.merge (l m : Label) : Label :=
  { markers := l.markers ++ m.markers
    parameters := if l.parameters.isEmpty then m.parameters else l.parameters
    result := l.result <|> m.result
    span := l.span.cover m.span }

namespace Draft

/-- The draft with one more statement. -/
def addStatement (d : Draft) (s : Stmt) : Draft :=
  { d with statements := d.statements ++ [s], isOpen := false }

/-- Whether a header would belong to the label of the paragraph. -/
def takesHeader (d : Draft) : Bool := d.statements.isEmpty && (d.label.isNone || d.isOpen)

/-- The draft with one more header and its body. -/
def addHeader (d : Draft) (l : Label) (body : Option Stmt) : Draft :=
  if d.takesHeader then
    let label := match d.label with
      | some first => first.merge l
      | none => l
    let d := { d with label := some label, isOpen := body.isNone }
    match body with
    | some s => d.addStatement s
    | none => d
  else d.addStatement (.underHeader l (body.getD (.noBody l)))

/-- The finished paragraph. -/
def finish (d : Draft) (span : Span) : Paragraph := ⟨d.statements, d.label, span⟩

end Draft

end Prose
