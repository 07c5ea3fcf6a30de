import Prose.Proofs.Grammar.DerivedSentence
import Prose.Proofs.Grammar.Markers
import Prose.Proofs.Tree.Names

/- Names in derived trees. A name is read from words of the text, one behind the other, and
   joined words are a name as it should be. The one exception is the base of a unit alias: it
   is what is left of a unit word, and of the word `s` nothing is left. -/
namespace Prose

open Text Node

/-- A token that stands for its part of the text. If it is a word of a name, there are no
    blanks in it. -/
structure Token.ReadFrom (text : List Char) (t : Token) : Prop where
  significant : t.isSignificant
  slice : slice text t.start t.stop = t.text.toList
  word : t.kind = .identifier → IsWord t.text.toList

/-- Tokens that all stand for parts of the text. -/
def Token.AllFrom (text : List Char) (ts : List Token) : Prop := ∀ t ∈ ts, t.ReadFrom text

theorem Token.AllFrom.part {text : List Char} {ts us : List Token} (h : AllFrom text ts)
    (hsub : us.Sublist ts) : AllFrom text us :=
  fun t ht => h t (hsub.subset ht)

namespace Grammar

variable {text : List Char} {fallback : Bool} {room : Nat} {ts us : List Token}

theorem Words.isName {name : String} (h : Words name ts) (hts : Token.AllFrom text ts) :
    IsName name := by
  obtain ⟨hne, hkinds, rfl⟩ := h
  apply isName_intercalate
  · rwa [ne_eq, List.map_eq_nil_iff]
  · exact List.forall_mem_map.2 fun t ht => (hts t ht).word (hkinds t ht)

/-! References and types. -/

theorem ReferenceFrom.isName {r : Reference} (h : ReferenceFrom room r ts) (hts : Token.AllFrom text ts) :
    ∀ name ∈ r.path, IsName name := by
  induction h with
  | name harticle hname => exact List.forall_mem_singleton.2 (hname.isName (hts.part (by grind)))
  | slot hr hapostrophe harticle hname ih =>
    rw [path_slot, List.forall_mem_append, List.forall_mem_singleton]
    exact ⟨ih (hts.part (by grind)), hname.isName (hts.part (by grind))⟩
  | owned hr hof howner ihr ihowner =>
    rw [path_withRootOwner, List.forall_mem_append]
    exact ⟨ihowner (hts.part (by grind)), ihr (hts.part (by grind))⟩

theorem ReferenceFrom.named {r : Reference} (h : ReferenceFrom room r ts) (hts : Token.AllFrom text ts) :
    (Node.reference r).Named fallback text :=
  named_reference (h.isName hts)

theorem Mentioned.named {r : Reference} (h : Mentioned ts r) (hts : Token.AllFrom text ts) :
    (Node.reference r).Named fallback text := by
  cases h with
  | intro hsub hname =>
    have hus := hts.part hsub
    exact named_plain (hname.isName (hus.part (by grind)))

theorem TypeFrom.named {t : TypeName} (h : TypeFrom t ts) (hts : Token.AllFrom text ts) :
    (Node.typeName t).Named fallback text := by
  cases h with
  | name harticle hname =>
    exact named_leaf rfl (List.forall_mem_singleton.2 (hname.isName (hts.part (by grind))))

theorem Aliased.isName {other : Option String} (h : Aliased other ts) (hts : Token.AllFrom text ts) :
    ∀ name ∈ other.toList, IsName name := by
  cases h with
  | none => exact nofun
  | is hverb harticle hname => exact List.forall_mem_singleton.2 (hname.isName (hts.part (by grind)))
  | «at» hverb harticle hname => exact List.forall_mem_singleton.2 (hname.isName (hts.part (by grind)))

theorem SlotFrom.named {s : Slot} (h : SlotFrom s ts) (hts : Token.AllFrom text ts) :
    (Node.slot s).Named fallback text := by
  cases h with
  | slot harticle hname hother =>
    refine named_leaf rfl (List.forall_mem_cons.2 ⟨?_, ?_⟩)
    · exact hname.isName (hts.part (by grind))
    · exact hother.isName (hts.part (by grind))

theorem SlotsFrom.named {ss : List Slot} (h : SlotsFrom ss ts) (hts : Token.AllFrom text ts) :
    ∀ s ∈ ss, (Node.slot s).Named fallback text := by
  induction h with
  | last hs => exact List.forall_mem_singleton.2 (hs.named hts)
  | more hs hseparator hlater ih =>
    exact List.forall_mem_cons.2 ⟨hs.named (hts.part (by grind)), ih (hts.part (by grind))⟩

/-! Expressions. -/

theorem LiteralFrom.named {e : Expr} (h : LiteralFrom e ts) : (Node.expr e).Named fallback text := by
  cases h with
  | int | text | bytes | ratio | null => exact named_leaf rfl nofun
  | inches =>
    exact named_of_names_eq_nil rfl (List.forall_mem_singleton.2 (named_leaf rfl nofun))

theorem OperandFrom.named {e : Expr} (h : OperandFrom room e ts) (hts : Token.AllFrom text ts) :
    (Node.expr e).Named fallback text := by
  cases h with
  | literal h => exact h.named
  | slot howner hapostrophe hname =>
    refine named_of_names_eq_nil rfl (List.forall_mem_cons.2 ⟨howner.named, List.forall_mem_singleton.2 ?_⟩)
    exact named_plain (hname.isName (hts.part (by grind)))
  | reference h => exact named_of_names_eq_nil rfl (List.forall_mem_singleton.2 (h.named hts))

theorem ArithmeticFrom.named {e : Expr} (h : ArithmeticFrom room e ts) (hts : Token.AllFrom text ts) :
    (Node.expr e).Named fallback text := by
  induction h with
  | operand h => exact h.named hts
  | math hfirst hop hsecond ihfirst ihsecond =>
    exact named_pair rfl rfl (ihfirst (hts.part (by grind))) (ihsecond (hts.part (by grind)))

theorem ComparisonFrom.named {e : Expr} (h : ComparisonFrom room e ts) (hts : Token.AllFrom text ts) :
    (Node.expr e).Named fallback text := by
  cases h with
  | comparison hfirst hop hsecond =>
    exact named_pair rfl rfl (hfirst.named (hts.part (by grind))) (hsecond.named (hts.part (by grind)))

theorem ExprFrom.named {e : Expr} (h : ExprFrom room e ts) (hts : Token.AllFrom text ts) :
    (Node.expr e).Named fallback text := by
  cases h with
  | arithmetic h => exact h.named hts
  | comparison h => exact h.named hts

theorem ActionFrom.named {inPlace : Bool} {e : Expr} (h : ActionFrom room inPlace e ts)
    (hts : Token.AllFrom text ts) : (Node.expr e).Named fallback text := by
  cases h with
  | sum _ hoperand htarget | factor _ htarget _ hoperand | put _ hoperand _ htarget
  | letBe _ htarget _ _ hoperand =>
    exact named_pair rfl rfl (htarget.named (hts.part (by grind))) (hoperand.named (hts.part (by grind)))

/-! Statements without a branch. -/

theorem InitializerFrom.named {value : Option Expr} (h : InitializerFrom room value ts)
    (hts : Token.AllFrom text ts) : ∀ e ∈ value.toList, (Node.expr e).Named fallback text := by
  cases h with
  | none => exact nofun
  | some hequal hto he => exact List.forall_mem_singleton.2 (he.named (hts.part (by grind)))

theorem DeclarationFrom.named {d : VariableDeclaration} (h : DeclarationFrom room d ts)
    (hts : Token.AllFrom text ts) : (Node.variableDeclaration d).Named fallback text := by
  cases h with
  | declared hthe hname hverb htype hvalue =>
    apply named_of_children
    · exact List.forall_mem_singleton.2 (.inl (hname.isName (hts.part (by grind))))
    · refine List.forall_mem_cons.2 ⟨htype.named (hts.part (by grind)), List.forall_mem_map.2 ?_⟩
      exact hvalue.named (hts.part (by grind))

/-- The base of a unit word is a word, unless it is the `s` that makes a plural. -/
theorem isName_baseUnit {word : String} (h : IsWord word.toList) :
    IsName (baseUnit word) ∨ baseUnit word = "" ∧ word.toList = ['s'] := by
  rw [baseUnit]
  split
  · next rest hreverse =>
    have hword : word.toList = rest.reverse ++ ['s'] := by
      rw [← List.reverse_reverse word.toList, hreverse, List.reverse_cons]
    by_cases hrest : rest = []
    · right
      rw [hword, hrest]
      exact ⟨rfl, rfl⟩
    · left
      apply IsWord.isName
      rw [String.toList_ofList]
      refine ⟨by rwa [ne_eq, List.reverse_eq_nil_iff], fun c hc => h.2 c ?_⟩
      rw [hword]
      exact List.mem_append_left _ hc
  · exact .inl h.isName

/-- A unit alias, whose base may be what is left of the word `s`. -/
theorem named_unitAlias {name base : String} {value : Expr} {nameSpan baseSpan span : Span}
    (hname : IsName name) (hvalue : (Node.expr value).Named fallback text)
    (hbase : IsName base ∨ base = "" ∧ slice text baseSpan.start baseSpan.stop = ['s']) :
    (Node.stmt (.unitAlias (.plain name nameSpan) value (.plain base baseSpan) span)).Named
      fallback text := by
  refine namedIn_of_children (List.forall_mem_nil _) (List.forall_mem_cons.2
    ⟨(named_plain hname).namedIn (by simp [children, Stmt.children]), List.forall_mem_cons.2
      ⟨hvalue.namedIn (by simp [children, Stmt.children]), List.forall_mem_singleton.2 ?_⟩⟩)
  refine namedIn_of_children (List.forall_mem_singleton.2 ?_) (List.forall_mem_nil _)
  exact hbase.imp_right fun h => ⟨h.1, .unit (self_mem_preorder _) h.2⟩

theorem named_markerPhrase {kinds : List Kind} {m : MarkerPhrase} (hts : Token.AllFrom text ts)
    (h : markerPhrase kinds ts = .ok m) :
    ∀ c ∈ m.parameters.map Node.reference ++ m.result.toList.map Node.reference,
      c.Named fallback text := by
  rw [← List.map_append]
  exact List.forall_mem_map.2 fun r hr => (mentioned_splitMarker h r hr).named hts

theorem named_looseCondition (hts : Token.AllFrom text ts) :
    (Node.expr (looseCondition ts)).Named fallback text := by
  rw [looseCondition]
  split
  · next m hm =>
    apply named_of_names_eq_nil rfl
    refine List.forall_mem_map.2 (List.forall_mem_map.2 fun r hr => ?_)
    apply named_of_names_eq_nil rfl
    have hmentioned := mentioned_splitMarker hm r (List.mem_append_left _ hr)
    exact List.forall_mem_singleton.2 (hmentioned.named hts)
  · exact named_leaf rfl nofun

theorem PlainFrom.named {s : Stmt} (h : PlainFrom room s ts) (hts : Token.AllFrom text ts) :
    (Node.stmt s).Named fallback text := by
  cases h with
  | declared h => exact named_of_names_eq_nil rfl (List.forall_mem_singleton.2 (h.named hts))
  | @unit name n the verb amount unit us hthe hname hverb hamount hn hunit =>
    have hread : unit.ReadFrom text := hts unit (by simp)
    refine named_unitAlias (hname.isName (hts.part (by grind))) (named_leaf rfl nofun) ?_
    exact (isName_baseUnit (hread.word hunit)).imp_right fun h => ⟨h.1, hread.slice.trans h.2⟩
  | constant hthe hname hverb he =>
    exact named_pair rfl rfl (named_plain (hname.isName (hts.part (by grind)))) he.named
  | pointer harticle hname hverb hone hpointer hto hbase =>
    exact named_pair rfl rfl (named_plain (hname.isName (hts.part (by grind))))
      (hbase.named (hts.part (by grind)))
  | shape harticle hname hverb hbase =>
    refine named_shape (.inl (hname.isName (hts.part (by grind)))) (List.forall_mem_singleton.2 ?_) nofun
    exact hbase.named (hts.part (by grind))
  | shapeWith harticle hname hverb hbase hwith hslots =>
    refine named_shape (.inl (hname.isName (hts.part (by grind)))) (List.forall_mem_singleton.2 ?_) ?_
    · exact hbase.named (hts.part (by grind))
    · exact hslots.named (hts.part (by grind))
  | shapeOf harticle hname hverb hslots =>
    refine named_shape (.inl (hname.isName (hts.part (by grind)))) nofun ?_
    exact hslots.named (hts.part (by grind))
  | action h => exact named_of_names_eq_nil rfl (List.forall_mem_singleton.2 (h.named hts))
  | result hopening hvalue =>
    refine named_of_names_eq_nil rfl (List.forall_mem_singleton.2 ?_)
    exact hvalue.named (hts.part (by grind))
  | invocation hm hwords => exact named_of_names_eq_nil rfl (named_markerPhrase hts hm)

/-! Headers, conditions and their branches. -/

/-- What is below a header. It is said of the trees there, since they may come under a label
    that is put together of several headers. -/
theorem LabelFrom.named {l : Label} (h : LabelFrom l ts) (hts : Token.AllFrom text ts) :
    ∀ c ∈ (Node.label l).children, c.Named fallback text := by
  cases h with
  | header hkeyword hm hwords => exact named_markerPhrase (hts.part (by grind)) hm

theorem ConditionFrom.named {e : Expr} (h : ConditionFrom room e ts) (hts : Token.AllFrom text ts) :
    (Node.expr e).Named fallback text := by
  cases h with
  | comparison h => exact h.named hts
  | loose hne => exact named_looseCondition hts

theorem named_noBody (l : Label) : (Node.stmt (.noBody l)).Named fallback text := named_leaf rfl nofun

theorem named_ofUnread (ts : List Token) : (Node.stmt (.ofUnread ts)).Named fallback text :=
  named_leaf rfl nofun

theorem named_underHeader {l : Label} {s : Stmt}
    (hl : ∀ c ∈ (Node.label l).children, c.Named fallback text)
    (hs : (Node.stmt s).Named fallback text) : (Node.stmt (.underHeader l s)).Named fallback text :=
  named_pair rfl rfl (named_of_names_eq_nil rfl hl) hs

theorem StmtFrom.named {s : Stmt} (h : StmtFrom room s ts) (hts : Token.AllFrom text ts) :
    (Node.stmt s).Named fallback text := by
  induction h with
  | plain h => exact h.named hts
  | @conditional room test branch opening separator ts us piece hif htest hseparator hpiece hbranch ih =>
    have hsub : piece.Sublist us := Token.sublist_of_mem_splitAt (hpiece ▸ List.mem_singleton_self _)
    have hus : Token.AllFrom text us := hts.part (by grind)
    exact named_pair rfl rfl (htest.named (hts.part (by grind))) (ih (hus.part hsub))
  | @block room test body opening separator ts us hif htest hseparator hbody hlength hbranch ih =>
    have hus : Token.AllFrom text us := hts.part (by grind)
    refine named_pair rfl rfl (htest.named (hts.part (by grind)))
      (named_of_names_eq_nil rfl (List.forall_mem_map.2 ?_))
    exact forall_mem_branches hlength fun b hb hsub => ih b hb (hus.part hsub)
  | labeled hlabel hbody ih =>
    exact named_underHeader (hlabel.named (hts.part (by grind))) (ih (hts.part (by grind)))
  | noBody hlabel => exact named_underHeader (hlabel.named (hts.part (by grind))) (named_noBody _)
  | unread => exact named_ofUnread _
  | uncommented h ih => exact ih (hts.part (withoutComments_sublist true _))

end Grammar

end Prose
