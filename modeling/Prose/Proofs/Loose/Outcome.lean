import Prose.LooseDeclaration

/- What loose declarations are read as: a declaration of a variable, with a number or a text
   as its initial value if it has one, or a declaration of a shape. Both cover the span of
   the sentence. Which parts of the text they are made of is said once, by the pattern that
   the text matches. -/
namespace Prose.LooseDeclaration

open Pattern

variable {text : List Char} {span : Span} {groups : Groups} {s : Stmt}

/-! Outlines. -/

/-- The readings of a text by its outline, one for each pattern, from what a match noted. -/
inductive Outlined (text : List Char) (span : Span) : Stmt → Prop where
  | variableDeclaration {groups : Groups} {type : Piece} {value : Option Expr}
      (hgroups : variablePattern.groups? text = some groups)
      (htype : piece? text span.start groups .type = some type)
      (hvalue : ∀ e ∈ value, ∃ piece, piece? text span.start groups .value = some piece ∧
        literal piece = .ok e) :
      Outlined text span (.variableDeclaration
        ⟨nameOf text groups, typeNameOf text groups type, value, span⟩ span)
  | slots {groups : Groups} {list : Piece} {slots : List Slot}
      (hgroups : slotsPattern.groups? text = some groups)
      (hlist : piece? text span.start groups .slots = some list) (hslots : slotList list = .ok slots) :
      Outlined text span (.shapeDeclaration ⟨nameOf text groups, none, some slots, span⟩ span)
  | baseAndSlots {groups : Groups} {list : Piece} {slots : List Slot}
      (hgroups : baseAndSlotsPattern.groups? text = some groups)
      (hlist : piece? text span.start groups .slots = some list) (hslots : slotList list = .ok slots) :
      Outlined text span (.shapeDeclaration ⟨nameOf text groups,
        (piece? text span.start groups .type).map (typeNameOf text groups), some slots, span⟩ span)
  | base {groups : Groups} {type : Piece} (hgroups : basePattern.groups? text = some groups)
      (htype : piece? text span.start groups .type = some type) :
      Outlined text span (.shapeDeclaration
        ⟨nameOf text groups, some (typeNameOf text groups type), none, span⟩ span)

theorem withPattern_eq_some {p : Pattern} {part : Part} {start : Nat} {piece : Piece}
    (h : withPattern text p part start = some (groups, piece)) :
    p.groups? text = some groups ∧ piece? text start groups part = some piece := by
  simp only [withPattern, Option.bind_eq_bind, Option.bind_eq_some_iff] at h
  obtain ⟨groups, hgroups, piece, hpiece, hpair⟩ := h
  obtain ⟨rfl, rfl⟩ := Prod.mk.inj (Option.some.inj hpair)
  exact ⟨hgroups, hpiece⟩

theorem variableOf_eq_ok {type : Piece} (h : variableOf text span groups type = .ok s) :
    ∃ value : Option Expr,
      s = .variableDeclaration ⟨nameOf text groups, typeNameOf text groups type, value, span⟩ span ∧
        ∀ e ∈ value, ∃ piece, piece? text span.start groups .value = some piece ∧
          literal piece = .ok e := by
  cases hpiece : piece? text span.start groups .value with
  | none =>
    simp only [variableOf, hpiece] at h
    obtain rfl := Except.ok.inj h
    exact ⟨none, rfl, nofun⟩
  | some piece =>
    rcases hread : literal piece with e | e <;>
      simp only [variableOf, hpiece, Option.mapM_some, hread] at h
    · cases h
    · obtain rfl := Except.ok.inj h
      refine ⟨some e, rfl, fun e' he => ⟨piece, rfl, ?_⟩⟩
      obtain rfl := Option.some.inj he
      exact hread

theorem shape_some_eq_ok {name : String} {base : Option TypeName} {list : Piece}
    (h : shape name base (some list) span = .ok s) :
    ∃ slots, slotList list = .ok slots ∧ s = .shapeDeclaration ⟨name, base, some slots, span⟩ span := by
  rcases hread : slotList list with e | slots <;> simp only [shape, Option.mapM_some, hread] at h
  · cases h
  · exact ⟨slots, rfl, (Except.ok.inj h).symm⟩

theorem plainShape_eq_ok {base : Piece} (h : plainShape text span groups base = .ok s) :
    s = .shapeDeclaration ⟨nameOf text groups, some (typeNameOf text groups base), none, span⟩ span := by
  rw [plainShape] at h
  split at h
  · cases h
  · split at h
    · cases h
    · exact (Except.ok.inj h).symm

theorem outlined_classify (h : classify text span = .ok s) : Outlined text span s := by
  rw [classify] at h
  split at h
  · next groups type hfound =>
    obtain ⟨hgroups, htype⟩ := withPattern_eq_some hfound
    obtain ⟨value, rfl, hvalue⟩ := variableOf_eq_ok h
    exact .variableDeclaration hgroups htype hvalue
  · split at h
    · next groups list hfound =>
      obtain ⟨hgroups, hlist⟩ := withPattern_eq_some hfound
      obtain ⟨slots, hslots, rfl⟩ := shape_some_eq_ok h
      exact .slots hgroups hlist hslots
    · split at h
      · next groups list hfound =>
        obtain ⟨hgroups, hlist⟩ := withPattern_eq_some hfound
        obtain ⟨slots, hslots, rfl⟩ := shape_some_eq_ok h
        exact .baseAndSlots hgroups hlist hslots
      · split at h
        · next groups base hfound =>
          obtain ⟨hgroups, hbase⟩ := withPattern_eq_some hfound
          rw [plainShape_eq_ok h]
          exact .base hgroups hbase
        · cases h

/-- Whatever is read of a sentence is read by its outline. -/
theorem outlined_parse (h : (parse text span).toOption = some s) : Outlined text span s := by
  rw [parse] at h
  rcases hclassify : classify text span with e | s' <;> rw [hclassify] at h
  · cases h
  · obtain rfl := Option.some.inj h
    exact outlined_classify hclassify

/-! Declarations. -/

/-- A number or a text. -/
def IsValue : Expr → Prop
  | .int .. | .text .. => True
  | _ => False

/-- A declaration that a sentence with a span can be read as. -/
inductive Declares (span : Span) : Stmt → Prop where
  | variableDeclaration {name : String} {type : TypeName} {value : Option Expr} (h : ∀ e ∈ value, IsValue e) :
      Declares span (.variableDeclaration ⟨name, type, value, span⟩ span)
  | shapeDeclaration {name : String} {base : Option TypeName} {slots : Option (List Slot)} :
      Declares span (.shapeDeclaration ⟨name, base, slots, span⟩ span)

theorem isValue_of_literal {piece : Piece} {e : Expr} (h : literal piece = .ok e) : IsValue e := by
  simp only [literal] at h
  split at h
  · obtain rfl := Except.ok.inj h
    trivial
  · split at h
    · obtain rfl := Except.ok.inj h
      trivial
    · cases h

theorem Outlined.declares (h : Outlined text span s) : Declares span s := by
  cases h with
  | variableDeclaration hgroups htype hvalue =>
    refine .variableDeclaration fun e he => ?_
    obtain ⟨piece, -, hread⟩ := hvalue e he
    exact isValue_of_literal hread
  | slots | baseAndSlots | base => exact .shapeDeclaration

/-- Whatever pattern a sentence matches, it is read as a declaration that covers it. -/
theorem declares_parse (h : parse text span = .ok s) : Declares span s :=
  (outlined_parse (congrArg Except.toOption h)).declares

end Prose.LooseDeclaration
