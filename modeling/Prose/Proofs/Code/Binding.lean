import Prose.Proofs.Code.Operands
import Prose.Proofs.Code.Quoted
import Prose.Proofs.Document.Parts

/- How the parts of an expression bind in its code. No parentheses are printed, so what an
   expression is grouped as depends on how its operands are printed. A ratio is printed as a
   quotient: to the right of a product and in front of an access it is taken apart. Everything
   else binds tight enough where it stands, and the code is grouped as the tree is. -/
namespace Prose

open Grammar Code

namespace Expr

/-- Whether an expression is a ratio. -/
def isRatio : Expr → Bool
  | ratio .. => true
  | _ => false

/-- No ratio stands to the right of a multiplication or division, and none owns a slot. -/
def RatiosApart : Expr → Prop
  | math op first second _ => first.RatiosApart ∧ second.RatiosApart ∧
      (op.isFactor = true → second.isRatio = false)
  | possessive _ owner _ => owner.isRatio = false
  | _ => True

/-- No text in an expression has a character that takes the next one with it. -/
def UnescapedTexts (escapes : Char → Bool) (e : Expr) : Prop :=
  ∀ v span, .expr (.text v span) ∈ (Node.expr e).preorder → ∀ c ∈ v.toList, escapes c = false

theorem UnescapedTexts.part {escapes : Char → Bool} {e part : Expr} (h : e.UnescapedTexts escapes)
    (hpart : .expr part ∈ (Node.expr e).children) : part.UnescapedTexts escapes :=
  fun v span hv => h v span (Node.preorder_subset hpart hv)

end Expr

variable {escapes : Char → Bool} {target : Target} {d : Dialect} {e : Expr} {code : String}

namespace Dialect

/-- What the code of an expression should be grouped as: the parts that are joined in the tree
    are the operands of the sign between them, and every other part is as it is on its own. -/
def grouping (d : Dialect) (escapes : Char → Bool) : Expr → Grouping
  | .math op first second _ => .binary (.math op) (d.grouping escapes first) (d.grouping escapes second)
  | .possessive slot owner _ =>
    .binary .member (d.grouping escapes owner) (grouped escapes (d.reference slot))
  | e => grouped escapes ((d.expr e).toOption.getD "")

/-- An expression has a code that is complete and has the operands and signs of the tree. -/
structure Prints (d : Dialect) (escapes : Char → Bool) (e : Expr) (code : String) : Prop where
  code_eq : d.expr e = .ok code
  closed : Closed escapes code
  row_eq : rowOf escapes code = (d.grouping escapes e).flatten

theorem grouping_leaf (hleaf : e.isJoined = false) (hcode : d.expr e = .ok code) :
    d.grouping escapes e = grouped escapes code := by
  have hprinted : (d.expr e).toOption.getD "" = code := by rw [hcode]; rfl
  cases e with
  | math | possessive => cases hleaf
  | _ => exact congrArg (grouped escapes) hprinted

theorem prints_leaf (hleaf : e.isJoined = false) (hcode : d.expr e = .ok code)
    (hclosed : Closed escapes code) : d.Prints escapes e code where
  code_eq := hcode
  closed := hclosed
  row_eq := by rw [grouping_leaf hleaf hcode, grouped, Grouping.flatten_ofRow]

theorem Prints.math {op : MathOp} {first second : Expr} {span : Span} {a b : String}
    (ha : d.Prints escapes first a) (hb : d.Prints escapes second b) :
    d.Prints escapes (.math op first second span) (a ++ (" " ++ mathSign op ++ " ") ++ b) := by
  obtain ⟨hrow, hends⟩ := scan_separated ha.closed (separates_math op) b
  refine ⟨?_, hends.2 hb.closed, ?_⟩
  · rw [expr, ha.code_eq, hb.code_eq]
    show Except.ok (a ++ " " ++ mathSign op ++ " " ++ b) = _
    simp only [String.append_assoc]
  · rw [hrow, ha.row_eq, hb.row_eq]
    rfl

theorem Prints.possessive {slot : Reference} {owner : Expr} {span : Span} {a : String}
    (ha : d.Prints escapes owner a) (hslot : IsOperand escapes (d.reference slot)) :
    d.Prints escapes (.possessive slot owner span) (a ++ "." ++ d.reference slot) := by
  obtain ⟨hrow, hends⟩ := scan_separated ha.closed separates_member (d.reference slot)
  refine ⟨?_, hends.2 hslot.closed, ?_⟩
  · rw [expr, ha.code_eq]
    rfl
  · rw [hrow, ha.row_eq, hslot.row, grouping, hslot.grouped]
    rfl

/-- How an expression binds in code: it is grouped as the tree is exactly if its ratios stand
    where they may, what is no sum binds as tight as a product, and what is no operation as
    tight as an access, unless it is a ratio. -/
structure Groups (d : Dialect) (escapes : Char → Bool) (e : Expr) : Prop where
  prints : ∃ code, d.Prints escapes e code
  canonical : (d.grouping escapes e).Canonical ↔ e.RatiosApart
  factor : e.isSum = false → (d.grouping escapes e).Binds 1
  access : e.isMath = false → ((d.grouping escapes e).Binds 2 ↔ e.isRatio = false)

/-! Leaves. -/

/-- A row of operands that are joined by accesses, if by anything. -/
theorem groups_chain (hleaf : e.isJoined = false) (hratio : e.isRatio = false)
    (hcode : d.expr e = .ok code) (hclosed : Closed escapes code)
    (hsigns : ∀ item ∈ (rowOf escapes code).front, item.2 = .member) : d.Groups escapes e := by
  have hbinds : (d.grouping escapes e).Binds 2 := by
    rw [grouping_leaf hleaf hcode]
    refine Grouping.binds_of_signs fun item hitem => ?_
    rw [grouped, Grouping.flatten_ofRow] at hitem
    rw [hsigns item hitem]
    exact Nat.le_refl 2
  refine ⟨⟨code, prints_leaf hleaf hcode hclosed⟩, ?_, fun _ => hbinds.mono (by decide), fun _ => ?_⟩
  · have hapart : e.RatiosApart := by
      cases e with
      | math | possessive => cases hleaf
      | _ => trivial
    rw [grouping_leaf hleaf hcode]
    exact iff_of_true (Grouping.canonical_ofRow _) hapart
  · exact iff_of_true hbinds hratio

theorem groups_operand (hleaf : e.isJoined = false) (hratio : e.isRatio = false)
    (hcode : d.expr e = .ok code) (h : IsOperand escapes code) : d.Groups escapes e := by
  refine groups_chain hleaf hratio hcode h.closed ?_
  rw [h.row]
  exact nofun

/-- A ratio binds like a product. -/
theorem groups_ratio {n m : Int} (hn : 0 ≤ n) (hm : 0 ≤ m) {span : Span} :
    d.Groups escapes (.ratio n m span) := by
  have hfirst : IsOperand escapes (toString n) := isOperand_int hn
  obtain ⟨hclosed, hrow⟩ := row_pair hfirst (isOperand_int hm) (separates_math .divide)
  have hcode : d.expr (.ratio n m span) =
      .ok (toString n ++ (" " ++ mathSign .divide ++ " ") ++ toString m) := by rw [expr]; rfl
  have hgrouping : d.grouping escapes (.ratio n m span) =
      .binary (.math .divide) (.operand (toString n)) (.operand (toString m)) := by
    rw [grouping_leaf rfl hcode, grouped, hrow]
    rfl
  refine ⟨⟨_, prints_leaf rfl hcode hclosed⟩, ?_, fun _ => ?_, fun _ => ?_⟩ <;> rw [hgrouping]
  · exact iff_of_true ⟨trivial, trivial, trivial, trivial⟩ trivial
  · exact Nat.le_refl 1
  · exact iff_of_false (Nat.not_succ_le_self 1) (ne_false_of_eq_true rfl)

/-! Joined parts. -/

theorem groups_possessive {slot : Reference} {owner : Expr} {span : Span}
    (howner : d.Groups escapes owner) (hmath : owner.isMath = false) (hapart : owner.RatiosApart)
    (hslot : IsOperand escapes (d.reference slot)) :
    d.Groups escapes (.possessive slot owner span) := by
  obtain ⟨code, hcode⟩ := howner.prints
  refine ⟨⟨_, hcode.possessive hslot⟩, ?_, fun _ => Nat.le_succ 1, fun _ => ?_⟩
  · rw [grouping, hslot.grouped]
    constructor
    · rintro ⟨-, -, hbinds, -⟩
      exact (howner.access hmath).1 hbinds
    · intro hratio
      exact ⟨howner.canonical.2 hapart, trivial, (howner.access hmath).2 hratio, trivial⟩
  · exact iff_of_true (Nat.le_refl 2) rfl

theorem groups_math {op : MathOp} {first second : Expr} {span : Span}
    (hfirst : d.Groups escapes first) (hsecond : d.Groups escapes second)
    (harith : (Expr.math op first second span).Arithmetic) :
    d.Groups escapes (.math op first second span) := by
  obtain ⟨-, -, hparts⟩ := harith
  obtain ⟨a, ha⟩ := hfirst.prints
  obtain ⟨b, hb⟩ := hsecond.prints
  -- only to the right of a product is a rank asked for that a ratio does not have
  have hbinds : (d.grouping escapes first).Binds (Sign.math op).rank ∧
      ((d.grouping escapes second).Binds ((Sign.math op).rank + 1) ↔
        (op.isFactor = true → second.isRatio = false)) := by
    rw [Sign.rank]
    split at hparts
    · next hfactor =>
      rw [if_pos hfactor, hsecond.access hparts.2]
      exact ⟨hfirst.factor hparts.1, fun h _ => h, fun h => h hfactor⟩
    · next hfactor =>
      rw [if_neg hfactor]
      exact ⟨Grouping.binds_zero _, iff_of_true (hsecond.factor hparts) fun h => absurd h hfactor⟩
  refine ⟨⟨_, ha.math hb⟩, ?_, fun hsum => ?_, nofun⟩
  · rw [grouping, Grouping.Canonical, hfirst.canonical, hsecond.canonical, hbinds.2,
      and_iff_right hbinds.1, Expr.RatiosApart]
  · have hfactor : op.isFactor = true := by simpa [Expr.isSum] using hsum
    show 1 ≤ (Sign.math op).rank
    rw [Sign.rank, if_pos hfactor]

end Dialect

/-! What is read of spelled tokens. -/

namespace Grammar

variable {room : Nat} {ts : List Token}

theorem LiteralFrom.groups (h : LiteralFrom e ts) (hts : ∀ t ∈ ts, t.Spelled)
    (htexts : e.UnescapedTexts escapes) : target.dialect.Groups escapes e := by
  have hnumber {t : Token} {n : Int} (ht : t ∈ ts) (hkind : t.kind = .intLiteral)
      (hn : Text.readInteger t.text = some n) : IsOperand escapes (toString n) := by
    have hspelled := hts t ht
    rw [Token.Spelled, hkind] at hspelled
    exact isOperand_int (Text.nonneg_of_readInteger hspelled hn)
  cases h with
  | int hkind hn =>
    exact Dialect.groups_operand rfl rfl (by rw [Dialect.expr]) (hnumber (by simp) hkind hn)
  | inches hkind hn =>
    exact Dialect.groups_operand rfl rfl (by rw [Dialect.expr, Dialect.expr])
      (hnumber (by simp) hkind hn)
  | @text t hkind =>
    obtain ⟨v, htext, hquote⟩ := (hts t (by simp)).exists_quoted hkind
    rw [htext, unquote_quoted hquote] at htexts ⊢
    have hescapes := htexts v _ (Node.self_mem_preorder _)
    exact Dialect.groups_operand rfl rfl (by rw [Dialect.expr]) (isOperand_quoted hquote hescapes)
  | bytes =>
    exact Dialect.groups_operand rfl rfl (by rw [Dialect.expr]) (isOperand_bytes _)
  | @ratio t n d hkind hnd =>
    have hspelled := hts t (by simp)
    rw [Token.Spelled, hkind] at hspelled
    obtain ⟨numerator, denominator, htext, hn, hd⟩ := hspelled
    obtain ⟨hn, hd⟩ := nonneg_of_readRatio htext hn hd hnd
    exact Dialect.groups_ratio hn hd
  | null =>
    have hnull : IsOperand escapes "null" := isOperand_of_not_separator (by simp [isSeparator])
    exact Dialect.groups_operand rfl rfl (by rw [Dialect.expr]) hnull

/-- Nothing in a literal is joined. -/
theorem LiteralFrom.plain (h : LiteralFrom e ts) : e.isMath = false ∧ e.RatiosApart := by
  cases h <;> exact ⟨rfl, trivial⟩

theorem OperandFrom.groups (h : OperandFrom room e ts) (hts : ∀ t ∈ ts, t.Spelled)
    (htexts : e.UnescapedTexts escapes) : target.dialect.Groups escapes e := by
  cases h with
  | literal h => exact h.groups hts htexts
  | @slot owner us apostrophe name vs howner hapostrophe hname =>
    have hslot : IsOperand escapes (target.dialect.reference (.plain name (.over vs))) := by
      rw [Dialect.reference_of_owners_eq_nil rfl]
      exact isOperand_identifier (hname.isWordCharacter fun t ht => hts t (by grind))
    have howner' : target.dialect.Groups escapes owner :=
      howner.groups (fun t ht => hts t (by grind)) (htexts.part (.head _))
    exact Dialect.groups_possessive howner' howner.plain.1 howner.plain.2 hslot
  | @reference r us h =>
    have hpath : r.path.map target.dialect.identifier ≠ [] := by simp [Reference.path]
    have hnames : ∀ name ∈ r.path.map target.dialect.identifier, IsOperand escapes name :=
      List.forall_mem_map.2 fun name hname => isOperand_identifier (h.isWordCharacter hts name hname)
    obtain ⟨hclosed, hsigns⟩ := chain_intercalate hpath hnames
    exact Dialect.groups_chain rfl rfl (by rw [Dialect.expr]; rfl) hclosed hsigns

/-- Whatever is read as arithmetic binds as the tree asks for, but for its ratios. -/
theorem ArithmeticFrom.groups (h : ArithmeticFrom room e ts) (hts : ∀ t ∈ ts, t.Spelled)
    (harith : e.Arithmetic) (htexts : e.UnescapedTexts escapes) :
    target.dialect.Groups escapes e := by
  induction h with
  | operand h => exact h.groups hts htexts
  | math hfirst hop hsecond ihfirst ihsecond =>
    obtain ⟨hleft, hright, -⟩ := id harith
    exact Dialect.groups_math
      (ihfirst (fun t ht => hts t (by grind)) hleft (htexts.part (.head _)))
      (ihsecond (fun t ht => hts t (by grind)) hright (htexts.part (.tail _ (.head _)))) harith

end Grammar

/-- How the code of an expression is grouped. Whatever is returned for a text, each operation and
    each slot of a literal in it has code in every target language. The code is complete and has
    the operands and signs of the tree in their order, where every leaf is printed as it is on
    its own. The code is grouped as the tree is exactly if no ratio stands to the right of a
    multiplication or division or owns a slot. -/
theorem printed_grouping_iff {settings : ReadingSettings} {text : String} {root : Node} {e : Expr}
    (hroot : Returned settings text root) (he : .expr e ∈ root.preorder)
    (hjoined : e.isJoined = true) (target : Target) {escapes : Char → Bool}
    (htexts : e.UnescapedTexts escapes) :
    ∃ code, Node.convert target (.expr e) = .ok code ∧ Closed escapes code ∧
      rowOf escapes code = (target.dialect.grouping escapes e).flatten ∧
      (grouped escapes code = target.dialect.grouping escapes e ↔ e.RatiosApart) := by
  obtain ⟨ts, hts, hread, harith⟩ := hroot.computed (.expr e) he e rfl hjoined
  have hgroups : target.dialect.Groups escapes e :=
    hread.groups (fun t ht => (hts t ht).2) harith htexts
  obtain ⟨code, hcode⟩ := hgroups.prints
  refine ⟨code, hcode.code_eq, hcode.closed, hcode.row_eq, ?_⟩
  rw [grouped, Grouping.ofRow_eq_iff, hgroups.canonical, and_iff_right hcode.row_eq.symm]

set_option maxRecDepth 4096 in
/-- The hyphen in the text is no sign, and the ratio is one operand of the sum. -/
theorem printed_grouping_iff_sum :
    let text := "put \"a-b\" plus 1/2 into a x."
    let escapes : Char → Bool := (· == '\\')
    let e : Expr := .math .plus (.text "a-b" ⟨4, 9⟩) (.ratio 1 2 ⟨15, 18⟩) ⟨4, 18⟩
    let root : Node := .document (Document.parse {} text)
    Returned {} text root ∧ .expr e ∈ root.preorder ∧ e.isJoined = true ∧
      e.UnescapedTexts escapes ∧ e.RatiosApart ∧
      ∃ code, Node.convert .csharp (.expr e) = .ok code ∧
        grouped escapes code = .binary (.math .plus) (.operand "\"a-b\"")
          (.binary (.math .divide) (.operand "1") (.operand "2")) := by
  intro text escapes e root
  have hroot : Returned {} text root := .whole (.document false)
  have hvalue : root.preorder[5]? = some (.expr e) := by cbv
  have he := List.mem_of_getElem? hvalue
  have htexts : e.UnescapedTexts escapes := by
    intro v span hv
    have hnodes : (Node.expr e).preorder =
        [.expr e, .expr (.text "a-b" ⟨4, 9⟩), .expr (.ratio 1 2 ⟨15, 18⟩)] := by cbv
    obtain ⟨rfl, rfl⟩ : v = "a-b" ∧ span = ⟨4, 9⟩ := by simpa [hnodes, e] using hv
    simp [escapes]
  have hapart : e.RatiosApart := ⟨trivial, trivial, fun h => absurd h Bool.false_ne_true⟩
  obtain ⟨code, hcode, -, -, hgrouped⟩ := printed_grouping_iff hroot he rfl .csharp htexts
  refine ⟨hroot, he, rfl, htexts, hapart, code, hcode, ?_⟩
  rw [hgrouped.2 hapart]
  decide

set_option maxRecDepth 4096 in
/-- To the right of a division a ratio is taken apart: what is read as 6 divided by a half is
    printed as 6 divided by 1, divided by 2. -/
theorem ratio_taken_apart :
    ¬∀ (settings : ReadingSettings) (text : String) (root : Node) (e : Expr),
      Returned settings text root → .expr e ∈ root.preorder → e.isJoined = true →
      ∀ target code, Node.convert target (.expr e) = .ok code →
        grouped (fun _ => false) code = target.dialect.grouping (fun _ => false) e := by
  intro h
  let e : Expr := .math .divide (.int 6 ⟨4, 5⟩) (.ratio 1 2 ⟨17, 20⟩) ⟨4, 20⟩
  have hvalue : (Node.document
      (Document.parse {} "put 6 divided by 1/2 into a x.")).preorder[5]? = some (.expr e) := by cbv
  have he := List.mem_of_getElem? hvalue
  have hcode : Node.convert .javascript (.expr e) = .ok "6 / 1 / 2" := by rfl
  have hgrouped := h {} _ _ e (.whole (.document false)) he rfl .javascript _ hcode
  exact absurd hgrouped (by decide)

end Prose
