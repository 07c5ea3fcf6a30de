import Prose.LooseDeclaration
import Prose.Proofs.Tree.Shift

/- Loose declarations at another place. What a text declares depends on the text alone;
   where it stands only says where the parts of the declaration stand. -/
namespace Prose.LooseDeclaration

variable {n : Nat}

/-- The piece `n` bytes further on. -/
def Piece.shift (n : Nat) (p : Piece) : Piece := ⟨p.text, p.span.shift n⟩

theorem piece?_shift (text : List Char) (start : Nat) (groups : Pattern.Groups) (part : Part) :
    piece? text (start + n) groups part = (piece? text start groups part).map (Piece.shift n) := by
  simp only [piece?]
  cases groups.lookup part with
  | none => rfl
  | some ends =>
    simp only [Option.map_some, Piece.shift, Span.shift, Option.some.injEq, Piece.mk.injEq,
      Span.mk.injEq, true_and]
    omega

theorem literal_shift (piece : Piece) : literal (piece.shift n) = (literal piece).map (Expr.shift n) := by
  simp only [literal, show (piece.shift n).text = piece.text from rfl]
  cases Text.readInteger (String.ofList (Text.trim piece.text)) with
  | some value => rfl
  | none =>
    simp only [apply_ite (Except.map (Expr.shift n))]
    rfl

theorem slot_shift (start : Nat) (text : List Char) :
    slot (start + n) text = (slot start text).map (Slot.shift n) := by
  simp only [slot]
  split
  · rfl
  · simp only [Except.map, Slot.shift, Span.shift, Except.ok.injEq, Slot.mk.injEq, Span.mk.injEq, true_and]
    omega

/-- Slots are read one by one. -/
theorem slotList_shift (list : Piece) :
    slotList (list.shift n) = (slotList list).map (List.map (Slot.shift n)) := by
  have hall (pieces : List (Nat × List Char)) :
      (pieces.mapM fun piece => slot ((list.shift n).span.start + piece.1) piece.2) =
        (pieces.mapM fun piece => slot (list.span.start + piece.1) piece.2).map
          (List.map (Slot.shift n)) := by
    induction pieces with
    | nil => rfl
    | cons piece pieces ih =>
      have hstart : (list.shift n).span.start + piece.1 = list.span.start + piece.1 + n :=
        Nat.add_right_comm ..
      rw [List.mapM_cons, List.mapM_cons, ih, hstart, slot_shift]
      generalize (pieces.mapM fun piece => slot (list.span.start + piece.1) piece.2) = later
      rcases slot (list.span.start + piece.1) piece.2 with e | s <;> rcases later with e' | ss <;> rfl
  exact hall _

theorem shape_shift (name : String) (base : Option TypeName) (list : Option Piece) (span : Span) :
    shape name (base.map (TypeName.shift n)) (list.map (Piece.shift n)) (span.shift n) =
      (shape name base list span).map (Stmt.shift n) := by
  cases list with
  | none => rfl
  | some list =>
    simp only [shape, Option.map_some, Option.mapM_some, slotList_shift]
    rcases slotList list with e | slots <;> rfl

theorem variableOf_shift (text : List Char) (span : Span) (groups : Pattern.Groups) (type : Piece) :
    variableOf text (span.shift n) groups (type.shift n) =
      (variableOf text span groups type).map (Stmt.shift n) := by
  have hvalue := piece?_shift (n := n) text span.start groups .value
  simp only [variableOf, Span.shift] at hvalue ⊢
  rw [hvalue]
  rcases piece? text span.start groups .value with _ | piece
  · rfl
  · simp only [Option.map_some, Option.mapM_some, literal_shift]
    rcases literal piece with e | value <;> rfl

theorem plainShape_shift (text : List Char) (span : Span) (groups : Pattern.Groups) (base : Piece) :
    plainShape text (span.shift n) groups (base.shift n) =
      (plainShape text span groups base).map (Stmt.shift n) := by
  have hshape := shape_shift (n := n) (nameOf text groups) (some (typeNameOf text groups base)) none span
  simp only [plainShape, show (base.shift n).text = base.text from rfl]
  rw [apply_ite (Except.map (Stmt.shift n)), apply_ite (Except.map (Stmt.shift n)), ← hshape]
  rfl

theorem withPattern_shift (text : List Char) (pattern : Pattern) (part : Part) (start : Nat) :
    withPattern text pattern part (start + n) =
      (withPattern text pattern part start).map (Prod.map id (Piece.shift n)) := by
  simp only [withPattern, piece?_shift]
  rcases pattern.groups? text with _ | groups
  · rfl
  · simp only [Option.bind_eq_bind, Option.bind_some]
    rcases piece? text start groups part with _ | piece <;> rfl

theorem classify_shift (text : List Char) (span : Span) :
    classify text (span.shift n) = (classify text span).map (Stmt.shift n) := by
  have hpattern (pattern : Pattern) (part : Part) :=
    withPattern_shift (n := n) text pattern part span.start
  simp only [classify, show (span.shift n).start = span.start + n from rfl, hpattern, piece?_shift]
  rcases withPattern text variablePattern .type span.start with _ | ⟨groups, type⟩
  · rcases withPattern text slotsPattern .slots span.start with _ | ⟨groups, list⟩
    · rcases withPattern text baseAndSlotsPattern .slots span.start with _ | ⟨groups, list⟩
      · rcases withPattern text basePattern .type span.start with _ | ⟨groups, base⟩
        · rfl
        · exact plainShape_shift text span groups base
      · have hbase : ((piece? text span.start groups .type).map (Piece.shift n)).map
            (typeNameOf text groups) = ((piece? text span.start groups .type).map
              (typeNameOf text groups)).map (TypeName.shift n) := by
          cases piece? text span.start groups .type <;> rfl
        have hshape := shape_shift (n := n) (nameOf text groups)
          ((piece? text span.start groups .type).map (typeNameOf text groups)) (some list) span
        rw [← hbase] at hshape
        exact hshape
    · exact shape_shift (nameOf text groups) none (some list) span
  · exact variableOf_shift text span groups type

/-- A text is declared further on what it declares here. -/
theorem parse_shift (text : List Char) (span : Span) :
    (parse text (span.shift n)).toOption = (parse text span).toOption.map (Stmt.shift n) := by
  simp only [parse, classify_shift]
  rcases classify text span with e | s <;> rfl

end Prose.LooseDeclaration
