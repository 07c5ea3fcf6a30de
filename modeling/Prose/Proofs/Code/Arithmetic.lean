import Prose.Code.Convert
import Prose.Proofs.Code.Formula
import Prose.Proofs.Grammar.LiteralText
import Prose.Proofs.Grammar.Soundness

/- Converted arithmetic. Arithmetic is written in every target language without any
   parentheses: operands and signs with single spaces between them. Split at the spaces,
   the code gives them back, and computed in the usual order they give what the machine gives
   for the tree. A printed number counts as the number that it spells, and a printed name as
   the variable that it was printed from, since two names may be printed alike. -/
namespace Prose

open Grammar Machine

/-! Operands as they are printed. -/

/-- The name of an expression that is nothing but a name. -/
def Expr.variable? : Expr → Option String
  | reference r _ => some r.name
  | _ => none

/-- A whole number, a length in inches or a variable that nothing owns. -/
def Expr.IsAmount : Expr → Prop
  | int .. | inches (int ..) _ => True
  | reference r _ => r.owners = []
  | _ => False

namespace Code

/-- The pieces of a code between its spaces. -/
def words (code : String) : List String := (code.toList.splitOn ' ').map String.ofList

/-- A printed operand and the variable that it was printed from, if it was one. -/
structure Operand where
  text : String
  source : Option String

/-- What stands in a memory for a printed operand. -/
def Operand.value (m : Memory) (o : Operand) : Except RunError Value :=
  match o.source with
  | some name => m.value name
  | none =>
    match Text.readInteger o.text with
    | some n => .ok (.int n)
    | none => .error (.undefined o.text)

theorem words_eq_singleton {code : String} (h : ' ' ∉ code.toList) : words code = [code] := by
  rw [words, List.splitOn_eq_singleton h, List.map_singleton, String.ofList_toList]

theorem words_append (a b : String) : words (a ++ " " ++ b) = words a ++ words b := by
  have htext : (a ++ " " ++ b).toList = a.toList ++ ' ' :: b.toList := by
    rw [String.toList_append, String.toList_append, List.append_assoc]
    rfl
  rw [words, htext, List.splitOn_append_cons_self, List.map_append, words, words]

theorem space_not_mem_mangle (name : String) : ' ' ∉ (mangle name).toList := by
  intro h
  rw [mangle, String.toList_ofList] at h
  obtain ⟨c, -, hc⟩ := List.mem_map.1 h
  split at hc
  · exact absurd hc (by decide)
  · next hkept => exact hkept (.inl hc)

theorem space_not_mem_mathSign (op : MathOp) : ' ' ∉ (mathSign op).toList := by
  cases op <;> decide

theorem space_not_mem_repr (n : Int) : ' ' ∉ n.repr.toList := by
  intro h
  rcases Text.isDecimalDigit_or_of_mem_repr h with h | h <;> exact absurd h (by decide)

end Code

theorem Target.space_not_mem_identifier (target : Target) (name : String) :
    ' ' ∉ (target.dialect.identifier name).toList := by
  cases target with
  | javascript => exact Code.space_not_mem_mangle name
  | csharp =>
    show ' ' ∉ (Code.CSharp.identifier name).toList
    rw [Code.CSharp.identifier]
    split
    · next h => rcases h with rfl | rfl <;> decide
    · exact Code.space_not_mem_mangle name

namespace Dialect

/-- An operand with what the dialect prints for it. -/
def operand (d : Dialect) (e : Expr) : Code.Operand where
  text := (d.expr e).toOption.getD ""
  source := e.variable?

variable {d : Dialect} {e leaf : Expr}

theorem reference_of_owners_eq_nil {r : Reference} (h : r.owners = []) :
    d.reference r = d.identifier r.name := by
  rw [reference, Reference.path, h]
  rfl

theorem expr_eq_operand (h : leaf.IsAmount) : d.expr leaf = .ok (d.operand leaf).text := by
  cases leaf with
  | int | reference => rw [operand, expr]; rfl
  | inches value =>
    cases value with
    | int => rw [operand, expr, expr]; rfl
    | _ => exact h.elim
  | _ => exact h.elim

end Dialect

variable {target : Target} {e leaf : Expr} {ts : List Token}

/-- No operand has a space in it. -/
theorem Expr.IsAmount.space_not_mem (h : leaf.IsAmount) :
    ' ' ∉ (target.dialect.operand leaf).text.toList := by
  cases leaf with
  | int n => exact Code.space_not_mem_repr n
  | inches value =>
    cases value with
    | int n => exact Code.space_not_mem_repr n
    | _ => exact h.elim
  | reference r =>
    show ' ' ∉ (target.dialect.reference r).toList
    rw [Dialect.reference_of_owners_eq_nil h]
    exact target.space_not_mem_identifier r.name
  | _ => exact h.elim

/-- The code of a tree is its row of operands and signs. -/
theorem exists_words_eq_pieces (hleaves : ∀ leaf ∈ e.formula.operands, leaf.IsAmount) :
    ∃ code, target.dialect.expr e = .ok code ∧
      Code.words code = ((e.formula.map target.dialect.operand).map Code.Operand.text).pieces := by
  fun_induction Expr.formula e with
  | case1 op first second span ihfirst ihsecond =>
    rw [Formula.operands_join, List.forall_mem_append] at hleaves
    obtain ⟨a, ha, hafirst⟩ := ihfirst hleaves.1
    obtain ⟨b, hb, hbsecond⟩ := ihsecond hleaves.2
    refine ⟨a ++ " " ++ Code.mathSign op ++ " " ++ b, ?_, ?_⟩
    · rw [Dialect.expr, ha, hb]
      rfl
    · have hsign := Code.words_eq_singleton (Code.space_not_mem_mathSign op)
      rw [Code.words_append, Code.words_append, hafirst, hsign, hbsecond, Formula.map_join,
        Formula.map_join, Formula.pieces_join, List.append_assoc, List.singleton_append]
  | case2 e hmath =>
    have hleaf := hleaves e List.mem_cons_self
    exact ⟨_, Dialect.expr_eq_operand hleaf, Code.words_eq_singleton hleaf.space_not_mem⟩

/-! Operands as they are read and evaluated. -/

theorem fitsInteger_of_readInteger {text : String} {n : Int} (h : Text.readInteger text = some n) :
    Text.fitsInteger n = true :=
  (Option.filter_eq_some_iff.1 h).2

/-- Every operand of what is read as arithmetic is read as one. -/
theorem exists_operands_of_mem (h : e.Worded Phrase.Operands ts) (harith : e.Arithmetic) :
    ∀ leaf ∈ e.formula.operands, ∃ us, Phrase.Operands leaf us := by
  induction h with
  | operand h =>
    have hmath := h.products.2
    rw [Expr.formula_of_operand hmath]
    intro leaf hleaf
    obtain rfl := List.mem_singleton.1 hleaf
    exact ⟨_, h⟩
  | math _ _ _ ihfirst ihsecond =>
    obtain ⟨hfirst, hsecond, -⟩ := harith
    rw [Expr.formula, Formula.operands_join, List.forall_mem_append]
    exact ⟨ihfirst hfirst, ihsecond hsecond⟩
  | comparison => exact harith.elim

/-- What is printed for an operand stands for its value. A number is printed as a text that is
    read as the same number. -/
theorem evaluate_operand (hleaf : leaf.IsAmount) (hread : Phrase.Operands leaf ts) (m : Memory) :
    (evaluate leaf).run m = ((target.dialect.operand leaf).value m, m) := by
  have hnumber {n : Int} (hn : Text.fitsInteger n = true) :
      Code.Operand.value m ⟨toString n, none⟩ = .ok (.int n) := by
    simp only [Code.Operand.value, Int.toString_eq_repr, Text.readInteger_repr hn]
  cases hread with
  | literal h =>
    cases h with
    | int _ hn =>
      show _ = (Code.Operand.value m ⟨toString _, none⟩, m)
      rw [hnumber (fitsInteger_of_readInteger hn), evaluate]
      rfl
    | inches _ hn =>
      show _ = (Code.Operand.value m ⟨toString _, none⟩, m)
      rw [hnumber (fitsInteger_of_readInteger hn), evaluate, evaluate]
      rfl
    | text | bytes | ratio | null => exact hleaf.elim
  | slot => exact hleaf.elim
  | @reference r span =>
    have hname : localName r = .ok r.name := localName_eq_ok_iff.2 ⟨hleaf, rfl⟩
    rw [evaluate, run_readReference, hname]
    rfl

/-- Conversion and evaluation agree on arithmetic. What is read as arithmetic on whole
    numbers, lengths and variables has code in every target language; the code falls apart at
    its spaces into operands and signs in turn, each operand as it is printed on its own; and
    whenever the machine has a value for the tree, that row has the same value, with products
    before sums and each from left to right. -/
theorem converted_arithmetic {p : Phrase} {s t : Progress} {e : Expr} (hs : p.Reached s)
    (h : p.arithmetic s = (some e, t)) (hleaves : ∀ leaf ∈ e.formula.operands, leaf.IsAmount)
    (target : Target) :
    let printed := e.formula.map target.dialect.operand
    (∀ leaf ∈ e.formula.operands,
      Node.convert target (.expr leaf) = .ok (target.dialect.operand leaf).text) ∧
    (∃ code, Node.convert target (.expr e) = .ok code ∧
      Code.words code = (printed.map Code.Operand.text).pieces) ∧
    ∀ m v m', (evaluate e).run m = (.ok v, m') → printed.value (Code.Operand.value m) = .ok v := by
  intro printed
  have hrun := Mirrors.arithmetic.run hs.faithful
  rw [h] at hrun
  obtain ⟨ts, -, hworded, hgrouped⟩ :=
    Phrase.reads_arithmetic (p := p.fresh) rfl s.pos s.plain e t.plain rfl hrun
  refine ⟨fun leaf hleaf => Dialect.expr_eq_operand (hleaves leaf hleaf), exists_words_eq_pieces hleaves, ?_⟩
  intro m v m' hvalue
  have hlook : ∀ leaf ∈ e.formula.operands,
      (evaluate leaf).run m = ((target.dialect.operand leaf).value m, m) := by
    intro leaf hleaf
    obtain ⟨us, hread⟩ := exists_operands_of_mem hworded hgrouped leaf hleaf
    exact evaluate_operand (hleaves leaf hleaf) hread m
  obtain ⟨-, hadds, -⟩ := formula_adds hgrouped hlook hvalue
  rw [Formula.value_map]
  exact hadds.value_eq

/-- `a byte plus 2 multiplied by 3 inches`, where the variable has a sign before its name in C#. -/
theorem converted_arithmetic_product :
    let tokens : List Token := [⟨.indefiniteArticle, "a", 0, 0⟩, ⟨.identifier, "byte", 0, 0⟩,
      ⟨.plusWord, "plus", 0, 0⟩, ⟨.intLiteral, "2", 0, 0⟩, ⟨.multipliedWord, "multiplied", 0, 0⟩,
      ⟨.byWord, "by", 0, 0⟩, ⟨.intLiteral, "3", 0, 0⟩, ⟨.inchWord, "inches", 0, 0⟩]
    let p : Phrase := ⟨tokens, 0, true, 0, fun ts => (Stmt.ofUnread ts, false)⟩
    let length : Expr := .inches (.int 3 .zero) .zero
    let e : Expr := .math .plus (.reference (.plain "byte" .zero) .zero)
      (.math .multiply (.int 2 .zero) length .zero) .zero
    let m : Memory := ⟨[("byte", ⟨"byte", "number", .int 4⟩)], ["byte"]⟩
    p.Reached {} ∧ p.arithmetic {} = (some e, (p.arithmetic {}).2) ∧
      (∀ leaf ∈ e.formula.operands, leaf.IsAmount) ∧
      (evaluate e).run m = (.ok (.int 10), m) ∧
      (∃ code, Node.convert .csharp (.expr e) = .ok code ∧
        Code.words code = ["@byte", "+", "2", "*", "3"]) ∧
      (e.formula.map (Target.dialect .csharp).operand).value (Code.Operand.value m) =
        .ok (.int 10) := by
  intro tokens p length e m
  have hstart : p.Reached {} := .start
  have hread : (p.arithmetic {}).1 = some e := by cbv
  have hleaves : ∀ leaf ∈ e.formula.operands, leaf.IsAmount := by
    have hoperands : e.formula.operands =
        [.reference (.plain "byte" .zero) .zero, .int 2 .zero, length] := rfl
    rw [hoperands, List.forall_mem_cons, List.forall_mem_cons, List.forall_mem_singleton]
    exact ⟨rfl, trivial, trivial⟩
  have hvalue : (evaluate e).run m = (.ok (.int 10), m) := by rfl
  clear_value p
  have h : p.arithmetic {} = (some e, (p.arithmetic {}).2) := Prod.ext hread rfl
  obtain ⟨-, hcode, hcomputed⟩ := converted_arithmetic hstart h hleaves .csharp
  exact ⟨hstart, h, hleaves, hvalue, hcode, hcomputed m _ m hvalue⟩
end Prose
