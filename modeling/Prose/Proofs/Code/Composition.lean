import Prose.Code.Writer

/- Conversion is compositional. Whatever stands in a writer and however far it is indented,
   a construct adds its own lines at that indentation and leaves the indentation as it was.
   So the lines of a whole are made up of the lines of its parts, as each part is converted
   alone. -/
namespace Prose

open Code Writing

/-! Parts and wholes. -/

/-- A whole that is put together of parts: all of them joined, or the error of the first part
    that fails. -/
inductive Concatenates {ε β γ : Type} (join : List β → γ) :
    List (Except ε β) → Except ε γ → Prop
  | ok (bs : List β) : Concatenates join (bs.map .ok) (.ok (join bs))
  | error (bs : List β) (e : ε) (later : List (Except ε β)) :
    Concatenates join (bs.map .ok ++ .error e :: later) (.error e)

section Parts

variable {ε α β γ β' γ' : Type} {parts : List (Except ε β)}

theorem Concatenates.cons {whole : Except ε (List β)} (b : β) (h : Concatenates id parts whole) :
    Concatenates id (.ok b :: parts) (whole.map (b :: ·)) := by
  cases h with
  | ok bs => exact .ok (b :: bs)
  | error bs e later => exact .error (b :: bs) e later

theorem concatenates_mapM (f : α → Except ε β) (as : List α) :
    Concatenates id (as.map f) (as.mapM f) := by
  induction as with
  | nil => exact .ok []
  | cons a as ih =>
    rw [List.map_cons, List.mapM_cons]
    cases f a with
    | error e => exact .error [] e (as.map f)
    | ok b =>
      have hcons := ih.cons b
      cases hlater : as.mapM f with
      | error e => rwa [hlater] at hcons
      | ok bs => rwa [hlater] at hcons

theorem Concatenates.join {whole : Except ε (List β)} (h : Concatenates id parts whole)
    (join : List β → γ) : Concatenates join parts (whole.map join) := by
  cases h with
  | ok bs => exact .ok bs
  | error bs e later => exact .error bs e later

theorem Concatenates.map {join : List β → γ} {join' : List β' → γ'} {whole : Except ε γ}
    {f : β → β'} {g : γ → γ'} (h : Concatenates join parts whole)
    (hfg : ∀ bs, g (join bs) = join' (bs.map f)) :
    Concatenates join' (parts.map fun part => part.map f) (whole.map g) := by
  have hok (bs : List β) : (bs.map Except.ok).map (fun part : Except ε β => part.map f) =
      (bs.map f).map .ok := by
    rw [List.map_map, List.map_map]
    rfl
  cases h with
  | ok bs =>
    rw [hok, Except.map, hfg]
    exact .ok _
  | error bs e later =>
    rw [List.map_append, hok]
    exact .error _ e _

theorem ofLines_flatten (ls : List (List String)) :
    Dialect.ofLines ls.flatten = String.join (ls.map Dialect.ofLines) := by
  induction ls with
  | nil => rfl
  | cons lines ls ih =>
    rw [List.flatten_cons, List.map_cons, String.join_cons, ← ih, Dialect.ofLines, List.map_append,
      String.join_append]
    rfl

/-- Texts are joined where their lines are. -/
theorem Concatenates.text {α : Type} {f : α → Except Unsupported (List String)} {as : List α}
    {whole : Except Unsupported (List String)} (h : Concatenates List.flatten (as.map f) whole) :
    Concatenates String.join (as.map fun a => (f a).map Dialect.ofLines)
      (whole.map Dialect.ofLines) := by
  have htext := h.map ofLines_flatten
  rwa [List.map_map] at htext

end Parts

namespace Code

/-! Indentation. -/

theorem indentBy_indent (level : Nat) (line : String) :
    indentBy level (indent line) = indentBy (level + 1) line := by
  induction level with
  | zero => rfl
  | succ level ih => rw [indentBy, ih]; rfl

/-- What stands before the body of something with a title. -/
def Braces.header (title : String) : Braces → List String
  | ownLine => [title, "\x7b"]
  | sameLine => [title ++ " \x7b"]

/-- The lines of a body between a header and a closing brace. -/
def framed (header body : List String) : List String := header ++ body.map indent ++ ["\x7d"]

/-- Writing adds lines at the indentation of the moment and leaves the indentation as it was,
    or fails, whatever stands in the writer. -/
def Writes (x : Writing Unit) (y : Except Unsupported (List String)) : Prop :=
  ∀ w, x.run w = y.map fun lines =>
    ((), { w with lines := w.lines ++ lines.map (indentBy w.level) })

namespace Writes

variable {α : Type} {x x' : Writing Unit} {y y' : Except Unsupported (List String)}

theorem emit (line : String) : Writes (Writing.emit line) (.ok [line]) := fun _ => rfl

theorem done : Writes (pure ()) (.ok []) := by
  intro w
  rw [StateT.run_pure, Except.map, List.map_nil, List.append_nil]
  rfl

theorem refuse (d : Dialect) (kind : String) :
    Writes (liftM (d.refuse kind : Except Unsupported Unit)) (d.refuse kind) := fun _ => rfl

/-- A new writer has no indentation. -/
theorem lines_eq (h : Writes x y) : x.lines = y := by
  have hzero : indentBy 0 = id := rfl
  rw [Writing.lines, h]
  cases y with
  | error u => rfl
  | ok lines => simp only [Except.map, hzero, List.map_id, List.nil_append]

theorem bind' {f : α → Writing Unit} {g : α → Except Unsupported (List String)}
    (a : Except Unsupported α) (h : ∀ a, Writes (f a) (g a)) :
    Writes (do let a ← a; f a) (do let a ← a; g a) := by
  intro w
  cases a with
  | error u => rfl
  | ok a => exact h a w

theorem andThen (h : Writes x y) (h' : Writes x' y') :
    Writes (do x; x') (do let lines ← y; let later ← y'; return lines ++ later) := by
  intro w
  rw [StateT.run_bind, h]
  cases y with
  | error u => rfl
  | ok lines =>
    simp only [Except.map, bind, Except.bind]
    rw [h']
    cases y' with
    | error u => rfl
    | ok later => simp only [Except.map, pure, Except.pure, List.map_append, List.append_assoc]

theorem before (line : String) (h : Writes x y) :
    Writes (do Writing.emit line; x) (y.map (line :: ·)) := by
  have hboth := (emit line).andThen h
  cases y <;> exact hboth

theorem behind (line : String) (h : Writes x y) :
    Writes (do x; Writing.emit line) (y.map (· ++ [line])) := by
  have hboth := h.andThen (emit line)
  cases y <;> exact hboth

/-- The indentation is moved in, and behind what was written there it is what it was. -/
theorem indented (h : Writes x y) :
    Writes (do pushIndent; x; popIndent) (y.map fun lines => lines.map indent) := by
  intro w
  show (do
    let done ← x.run ⟨w.lines, w.level + 1⟩
    popIndent.run done.2) = _
  rw [h]
  cases y with
  | error u => rfl
  | ok lines =>
    have hlines : lines.map (indentBy (w.level + 1)) =
        (lines.map indent).map (indentBy w.level) := by
      rw [List.map_map]
      exact List.map_congr_left fun line _ => (indentBy_indent w.level line).symm
    simp only [Except.map, hlines]
    rfl

/-- A body with a title. -/
theorem write (h : Writes x y) (title : String) (b : Braces) :
    Writes (b.write title x) (y.map (framed (b.header title))) := by
  have hbody := h.indented.behind "\x7d"
  cases b with
  | ownLine =>
    have hwrite := (hbody.before "\x7b").before title
    simp only [Braces.write, openBraces, closeBraces, bind_assoc] at hwrite ⊢
    cases y <;> exact hwrite
  | sameLine =>
    have hwrite := hbody.before (title ++ " \x7b")
    simp only [Braces.write, bind_assoc] at hwrite ⊢
    cases y <;> exact hwrite

theorem forM' {α : Type} {f : α → Writing Unit} {g : α → Except Unsupported (List String)}
    (h : ∀ a, Writes (f a) (g a)) (as : List α) :
    Writes (as.forM f) ((as.mapM g).map List.flatten) := by
  induction as with
  | nil => exact done
  | cons a as ih =>
    have hboth := (h a).andThen ih
    rw [List.mapM_cons]
    cases hfirst : g a with
    | error u =>
      rw [hfirst] at hboth
      exact hboth
    | ok lines =>
      rw [hfirst] at hboth
      cases hlater : as.mapM g <;> rw [hlater] at hboth <;> exact hboth

end Writes

end Code

/-! What the constructs of the targets write. -/

namespace Target

/-- The targets open shapes with different braces. -/
theorem shapeHeader_eq (t : Target) (s : Shape) :
    t.dialect.shapeHeader s = t.braces.header (t.shapeTitle s) := by
  cases t <;> rfl

theorem procedureHeader_eq (t : Target) (l : Label) :
    t.dialect.procedureHeader (mangle l.marker)
        (l.parameters.map fun r => t.dialect.identifier r.name) =
      t.braces.header (t.signature l) := by
  cases t with
  | csharp => rfl
  | javascript =>
    have hbrace : ") \x7b" = ")" ++ " \x7b" := rfl
    simp only [Target.dialect, JavaScript.dialect, Target.braces, Braces.header, signature, hbrace,
      String.append_assoc]

theorem writes_shape (t : Target) (s : Shape) :
    Writes (t.writeShape s) (.ok (t.dialect.shape s)) := by
  have hslots := (Writes.forM' (fun slot => .emit (t.dialect.slot slot)) (s.slots.getD [])).write
    (t.shapeTitle s) t.braces
  have hlines : ((s.slots.getD []).mapM fun slot =>
      (.ok [t.dialect.slot slot] : Except Unsupported (List String))) =
      .ok ((s.slots.getD []).map fun slot => [t.dialect.slot slot]) := List.mapM_pure
  have hflat : ((s.slots.getD []).map fun slot => [t.dialect.slot slot]).flatten =
      (s.slots.getD []).map t.dialect.slot := List.map_eq_flatMap.symm
  rw [hlines, Except.map, Except.map, hflat, framed, List.map_map, ← shapeHeader_eq] at hslots
  exact hslots

theorem writes_constant (t : Target) (name : Reference) (value : Expr) (tail : String) :
    Writes (t.writeConstant name value tail) (t.dialect.constant name value tail) := by
  cases t with
  | csharp =>
    have htype : csharp.dialect.constantType = CSharp.constantType := rfl
    rw [writeConstant, Dialect.constant, htype]
    cases CSharp.constantType value with
    | none => exact (Writes.refuse _ _).write _ .ownLine
    | some type =>
      have hline := Writes.bind' (csharp.dialect.expr value) fun code => .emit
        ("public const " ++ type ++ " " ++ csharp.dialect.reference name ++ " = " ++
          (code ++ tail) ++ ";")
      have hlines := hline.write "public partial class constants" .ownLine
      cases hvalue : csharp.dialect.expr value <;> simp only [hvalue] at hlines ⊢ <;> exact hlines
  | javascript => exact .bind' _ fun code => .emit _

theorem writes_pointer (t : Target) (pointer : Reference) (base : TypeName) :
    Writes (t.writePointer pointer base)
      (.ok (t.dialect.pointer (t.dialect.reference pointer) base)) := by
  cases t with
  | csharp => exact .emit _
  | javascript => exact ((Writes.emit _).write _ .ownLine).write _ .ownLine

theorem writes_labelled (t : Target) (label : Option Label) {x : Writing Unit}
    {y : Except Unsupported (List String)} (h : Writes x y) :
    Writes (t.writeLabelled label x) (y.map (t.dialect.labelled label)) := by
  cases label with
  | none => cases y <;> exact h
  | some l =>
    have hwrite := h.write (t.signature l) t.braces
    rw [← procedureHeader_eq] at hwrite
    exact hwrite

mutual

/-- A statement writes what it is converted to, at any indentation. -/
theorem writes_stmt (t : Target) (s : Stmt) : Writes (t.writeStmt s) (t.dialect.stmt s) := by
  cases s with
  | block body => exact writes_stmts t body
  | paragraph statements label =>
    exact writes_labelled t label (writes_stmts t statements)
  | variableDeclaration d => exact .bind' _ fun code => .emit (code ++ ";")
  | shapeDeclaration s => exact writes_shape t s
  | constantDeclaration name value => exact writes_constant t name value ""
  | unitAlias name value base => exact writes_constant t name value _
  | pointerDeclaration pointer base => exact writes_pointer t pointer base
  | expression value => exact .bind' _ fun code => .emit (code ++ ";")
  | conditional condition branch =>
    rw [writeStmt, Dialect.stmt]
    have hbranch := writes_stmt t branch
    refine .bind' _ fun code => ?_
    have hwrite := hbranch.write ("if (" ++ code ++ ")") .sameLine
    have htitle : "if (" ++ code ++ ")" ++ " \x7b" = "if (" ++ code ++ ") \x7b" := by
      rw [String.append_assoc]
      rfl
    rw [Braces.header, htitle] at hwrite
    cases hlines : t.dialect.stmt branch <;> rw [hlines] at hwrite <;> exact hwrite
  | result value => exact .bind' _ fun code => .emit ("return " ++ code ++ ";")
  | invocation marker parameters result => exact .emit _
  | labeled label body => exact writes_labelled t (some label) (writes_stmt t body)
  | invalid tokens s =>
    cases t with
    | csharp => exact .emit _
    | javascript => exact .refuse _ _

theorem writes_stmts (t : Target) (ss : List Stmt) :
    Writes (t.writeStmts ss) (t.dialect.stmts ss) := by
  cases ss with
  | nil => exact .done
  | cons s ss => exact (writes_stmt t s).andThen (writes_stmts t ss)

end

theorem writes_paragraph (t : Target) (p : Paragraph) :
    Writes (t.writeParagraph p) (t.dialect.paragraph p) :=
  writes_labelled t p.label (writes_stmts t p.statements)

theorem writes_document (t : Target) (n : Document) :
    Writes (t.writeDocument n) (t.dialect.document n) :=
  .forM' (writes_paragraph t) n.paragraphs

/-! Conversions alone. -/

/-- The lines of a document alone. -/
def documentLines (t : Target) (n : Document) : Except Unsupported (List String) :=
  (t.writeDocument n).lines

/-- The lines of a paragraph alone. -/
def paragraphLines (t : Target) (p : Paragraph) : Except Unsupported (List String) :=
  (t.writeParagraph p).lines

/-- The lines of a statement alone. -/
def stmtLines (t : Target) (s : Stmt) : Except Unsupported (List String) := (t.writeStmt s).lines

theorem documentLines_eq (t : Target) : t.documentLines = t.dialect.document :=
  funext fun n => (writes_document t n).lines_eq

theorem paragraphLines_eq (t : Target) : t.paragraphLines = t.dialect.paragraph :=
  funext fun p => (writes_paragraph t p).lines_eq

theorem stmtLines_eq (t : Target) : t.stmtLines = t.dialect.stmt :=
  funext fun s => (writes_stmt t s).lines_eq

/-- What stands before the body of a procedure. -/
def header (t : Target) (l : Label) : List String := t.braces.header (t.signature l)

theorem procedure_eq (t : Target) (l : Label) : t.dialect.procedure l = framed (t.header l) := by
  funext body
  rw [Dialect.procedure, procedureHeader_eq, framed, header]

theorem stmts_eq (t : Target) (ss : List Stmt) :
    t.dialect.stmts ss = (ss.mapM t.dialect.stmt).map List.flatten := by
  induction ss with
  | nil => rfl
  | cons s ss ih =>
    rw [Dialect.stmts, ih, List.mapM_cons]
    cases t.dialect.stmt s with
    | error u => rfl
    | ok lines => cases ss.mapM t.dialect.stmt <;> rfl

theorem document_eq (t : Target) (n : Document) :
    t.dialect.document n = (n.paragraphs.mapM t.dialect.paragraph).map List.flatten := by
  rw [Dialect.document]
  cases n.paragraphs.mapM t.dialect.paragraph <;> rfl

theorem paragraph_eq (t : Target) (statements : List Stmt) (label : Option Label) (span : Span) :
    t.dialect.paragraph ⟨statements, label, span⟩ =
      (t.dialect.stmts statements).map (t.dialect.labelled label) := by
  rw [Dialect.paragraph]
  cases t.dialect.stmts statements <;> rfl

/-- Statements in a row are joined. -/
theorem concatenates_stmts (t : Target) (ss : List Stmt) :
    Concatenates List.flatten (ss.map t.dialect.stmt) (t.dialect.stmts ss) := by
  rw [stmts_eq]
  exact (concatenates_mapM _ ss).join List.flatten

theorem concatenates_paragraph (t : Target) (statements : List Stmt) (span : Span) :
    Concatenates List.flatten (statements.map t.dialect.stmt)
      (t.dialect.paragraph ⟨statements, none, span⟩) := by
  have hself : t.dialect.labelled none = id := rfl
  rw [paragraph_eq, hself, Except.map_id]
  exact concatenates_stmts t statements

theorem concatenates_document (t : Target) (n : Document) :
    Concatenates List.flatten (n.paragraphs.map t.dialect.paragraph) (t.dialect.document n) := by
  rw [document_eq]
  exact (concatenates_mapM _ n.paragraphs).join List.flatten

/-- The lines of a whole are made up of those of its parts, and so are the texts. -/
structure Composes (t : Target) : Prop where
  /-- A document is its paragraphs, one after the other. -/
  document : ∀ n : Document,
    Concatenates List.flatten (n.paragraphs.map t.paragraphLines) (t.documentLines n)
  /-- A paragraph without a label is its statements. -/
  paragraph : ∀ statements span,
    Concatenates List.flatten (statements.map t.stmtLines)
      (t.paragraphLines ⟨statements, none, span⟩)
  block : ∀ body span,
    Concatenates List.flatten (body.map t.stmtLines) (t.stmtLines (.block body span))
  /-- A label stands around what the paragraph would be without it. -/
  labelled : ∀ statements l span, t.paragraphLines ⟨statements, some l, span⟩ =
    (t.paragraphLines ⟨statements, none, span⟩).map (framed (t.header l))
  nested : ∀ statements label span,
    t.stmtLines (.paragraph statements label span) = t.paragraphLines ⟨statements, label, span⟩
  labeled : ∀ l body span,
    t.stmtLines (.labeled l body span) = (t.stmtLines body).map (framed (t.header l))
  conditional : ∀ condition branch span, t.stmtLines (.conditional condition branch span) = (do
    let code ← t.dialect.expr condition
    (t.stmtLines branch).map (framed ["if (" ++ code ++ ") \x7b"]))
  /-- Further in, the lines are the same, and the indentation is what it was. -/
  anywhere : ∀ s w, (t.writeStmt s).run w = (t.stmtLines s).map fun lines =>
    ((), { w with lines := w.lines ++ lines.map (indentBy w.level) })
  /-- The text is the lines, each with its line break. -/
  text : (∀ n, Node.convert t (.document n) = (t.documentLines n).map Dialect.ofLines) ∧
    (∀ p, Node.convert t (.paragraph p) = (t.paragraphLines p).map Dialect.ofLines) ∧
    ∀ s, Node.convert t (.stmt s) = (t.stmtLines s).map Dialect.ofLines
  documentText : ∀ n : Document, Concatenates String.join
    (n.paragraphs.map fun p => Node.convert t (.paragraph p)) (Node.convert t (.document n))
  paragraphText : ∀ statements span, Concatenates String.join
    (statements.map fun s => Node.convert t (.stmt s))
    (Node.convert t (.paragraph ⟨statements, none, span⟩))
  blockText : ∀ body span, Concatenates String.join
    (body.map fun s => Node.convert t (.stmt s)) (Node.convert t (.stmt (.block body span)))

example : Target.csharp.stmtLines (.labeled ⟨["go"], [], none, .zero⟩
    (.conditional (.null .zero) (.invocation "run" [] none .zero) .zero) .zero) =
    .ok ["void go()", "\x7b", "    if (null) \x7b", "        run();", "    \x7d", "\x7d"] := by
  rfl

end Target

end Prose
