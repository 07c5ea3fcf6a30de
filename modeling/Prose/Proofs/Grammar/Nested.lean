import Prose.Proofs.Grammar.DerivedSentence
import Prose.Proofs.Grammar.Markers
import Prose.Proofs.Tree.Nested

/- What is derived from tokens is well nested. If the tokens stand one behind the other,
   every tree that the grammar builds from them is well nested, and they hold it. One case
   for each way to build a tree; all of them cover their tokens or what is below them. -/
namespace Prose.Grammar

open Node

variable {P : Nat → Prop} {room : Nat} {ts us : List Token}

/-! References. -/

theorem nested_withRootOwner {owner : Reference} (howner : (Node.reference owner).Nested P)
    {r : Reference} (hr : (Node.reference r).Nested P) :
    (Node.reference (r.withRootOwner owner)).Nested P := by
  obtain ⟨name, span, owners⟩ := r
  induction owners generalizing name span with
  | nil =>
    refine .intro (hr.sits.cover howner.sits) ?_ .nil ?_ <;>
      simp only [children, Reference.withRootOwner, Reference.owner?, List.map_nil, List.nil_append,
        Option.toList_some, List.map_cons, List.forall_mem_singleton]
    · exact Span.within_cover_right ..
    · exact howner
  | cons o above ih =>
    cases hr with
    | intro sits within _ below =>
      have hmem : Node.reference ⟨o.name, o.span, above⟩ ∈
          (Node.reference ⟨name, span, o :: above⟩).children := List.mem_singleton.2 rfl
      have hwithin : o.span.Within span := within _ hmem
      refine .intro (sits.cover howner.sits) ?_ .nil ?_ <;>
        simp only [children, Reference.withRootOwner, Reference.owner?, List.map_cons,
          List.cons_append, Option.toList_some, List.map_nil, List.forall_mem_singleton]
      · exact (hwithin.trans (Span.within_cover_left ..)).cover (Span.within_cover_right ..)
      · exact ih o.name o.span (below _ hmem)

theorem ReferenceFrom.fits {r : Reference} (h : ReferenceFrom room r ts) (hts : Token.Laid P ts) :
    (Node.reference r).Fits P ts := by
  induction h with
  | name => exact fits_over hts (by simp) rfl rfl nofun
  | slot hr hapostrophe harticle hname ih =>
    exact fits_over hts (by simp) rfl rfl (List.forall_mem_singleton.2 (.of_part ih hts (by grind)))
  | @owned room r ts preposition owner us hr hof howner ihr ihowner =>
    have hr : (Node.reference r).Fits P (ts ++ preposition :: us) := .of_part ihr hts (by grind)
    have howner : (Node.reference owner).Fits P (ts ++ preposition :: us) :=
      .of_part ihowner hts (by grind)
    exact ⟨nested_withRootOwner howner.nested hr.nested, hr.held.cover howner.held⟩

/-- A name alone, which covers some of the tokens. -/
theorem fits_plain {name : String} {span : Span} (hts : Token.Laid P ts) (hsub : us.Sublist ts)
    (hne : us ≠ []) (hspan : span = .over us) : (Node.reference (.plain name span)).Fits P ts :=
  .of_part (fun hus => fits_over hus hne hspan rfl nofun) hts hsub

theorem TypeFrom.fits {t : TypeName} (h : TypeFrom t ts) (hts : Token.Laid P ts) :
    (Node.typeName t).Fits P ts := by
  cases h with
  | name => exact fits_over hts (by simp) rfl rfl nofun

theorem SlotFrom.fits {s : Slot} (h : SlotFrom s ts) (hts : Token.Laid P ts) :
    (Node.slot s).Fits P ts := by
  cases h with
  | slot => exact fits_over hts (by simp) rfl rfl nofun

theorem SlotsFrom.fits {ss : List Slot} (h : SlotsFrom ss ts) (hts : Token.Laid P ts) :
    ∀ s ∈ ss, (Node.slot s).Fits P ts := by
  induction h with
  | last hs => exact List.forall_mem_singleton.2 (hs.fits hts)
  | more hs hseparator hlater ih =>
    refine List.forall_mem_cons.2 ⟨.of_part hs.fits hts (by grind), fun s hs => ?_⟩
    exact .of_part (fun hus => ih hus s hs) hts (by grind)

/-! Expressions. -/

theorem LiteralFrom.fits {e : Expr} (h : LiteralFrom e ts) (hts : Token.Laid P ts) :
    (Node.expr e).Fits P ts := by
  cases h with
  | int | text | bytes | ratio | null => exact fits_leaf hts (by simp) rfl rfl rfl
  | @inches t u n h hn hu =>
    have hvalue : (Node.expr (.int n (.ofToken t))).Fits P [t, u] := fits_leaf hts (by simp) rfl rfl rfl
    have hunit : (Span.ofToken u).Sits P ∧ (Span.ofToken u).HeldBy [t, u] :=
      ⟨hts.sits u (by simp), Span.heldBy_ofToken (by simp)⟩
    exact fits_cover hvalue.span hunit rfl rfl
      (List.forall_mem_singleton.2 ⟨hvalue.nested, .inl (.refl _)⟩)

theorem OperandFrom.fits {e : Expr} (h : OperandFrom room e ts) (hts : Token.Laid P ts) :
    (Node.expr e).Fits P ts := by
  cases h with
  | literal h => exact h.fits hts
  | slot howner hapostrophe hname =>
    refine fits_over hts (by simp) rfl rfl (List.forall_mem_cons.2 ⟨?_, List.forall_mem_singleton.2 ?_⟩)
    · exact .of_part howner.fits hts (by grind)
    · exact fits_plain hts (by grind) hname.1 rfl
  | reference h => exact fits_single (h.fits hts) rfl rfl rfl

theorem ArithmeticFrom.fits {e : Expr} (h : ArithmeticFrom room e ts) (hts : Token.Laid P ts) :
    (Node.expr e).Fits P ts := by
  induction h with
  | operand h => exact h.fits hts
  | math hfirst hop hsecond ihfirst ihsecond =>
    exact fits_pair (.of_part ihfirst hts (by grind)) (.of_part ihsecond hts (by grind)) rfl rfl rfl

theorem ComparisonFrom.fits {e : Expr} (h : ComparisonFrom room e ts) (hts : Token.Laid P ts) :
    (Node.expr e).Fits P ts := by
  cases h with
  | comparison hfirst hop hsecond =>
    exact fits_pair (.of_part hfirst.fits hts (by grind)) (.of_part hsecond.fits hts (by grind)) rfl rfl rfl

theorem ExprFrom.fits {e : Expr} (h : ExprFrom room e ts) (hts : Token.Laid P ts) :
    (Node.expr e).Fits P ts := by
  cases h with
  | arithmetic h => exact h.fits hts
  | comparison h => exact h.fits hts

theorem ActionFrom.fits {inPlace : Bool} {e : Expr} (h : ActionFrom room inPlace e ts)
    (hts : Token.Laid P ts) : (Node.expr e).Fits P ts := by
  cases h with
  | sum _ hoperand htarget | factor _ htarget _ hoperand | put _ hoperand _ htarget
  | letBe _ htarget _ _ hoperand =>
    refine fits_over hts (by simp) rfl rfl (List.forall_mem_cons.2 ⟨?_, List.forall_mem_singleton.2 ?_⟩)
    · exact .of_part htarget.fits hts (by grind)
    · exact .of_part hoperand.fits hts (by grind)

/-! Statements without a branch. -/

theorem InitializerFrom.fits {value : Option Expr} (h : InitializerFrom room value ts)
    (hts : Token.Laid P ts) : ∀ e ∈ value.toList, (Node.expr e).Fits P ts := by
  cases h with
  | none => exact nofun
  | some hequal hto he => exact List.forall_mem_singleton.2 (.of_part he.fits hts (by grind))

theorem DeclarationFrom.fits {d : VariableDeclaration} (h : DeclarationFrom room d ts)
    (hts : Token.Laid P ts) : (Node.variableDeclaration d).Fits P ts := by
  cases h with
  | declared hthe hname hverb htype hvalue =>
    refine fits_over hts (by simp) rfl rfl (List.forall_mem_cons.2 ⟨?_, List.forall_mem_map.2 fun e he => ?_⟩)
    · exact .of_part htype.fits hts (by grind)
    · exact .of_part (fun hvs => hvalue.fits hvs e he) hts (by grind)

/-- A shape that covers all tokens, its base and slots among them. -/
theorem fits_shape {name : String} {base : Option TypeName} {slots : Option (List Slot)}
    (hts : Token.Laid P ts) (hne : ts ≠ [])
    (hbase : ∀ t ∈ base.toList, (Node.typeName t).Fits P ts)
    (hslots : ∀ s ∈ slots.getD [], (Node.slot s).Fits P ts) :
    (Node.stmt (.shapeDeclaration ⟨name, base, slots, .over ts⟩ (.over ts))).Fits P ts := by
  have hshape : (Node.shape ⟨name, base, slots, .over ts⟩).Fits P ts :=
    fits_over hts hne rfl rfl (List.forall_mem_append.2
      ⟨List.forall_mem_map.2 hbase, List.forall_mem_map.2 hslots⟩)
  exact fits_single hshape rfl rfl rfl

/-! Marker phrases. -/

theorem Mentioned.fits {r : Reference} (h : Mentioned ts r) (hts : Token.Laid P ts) :
    (Node.reference r).Fits P ts := by
  cases h with
  | intro hsub hname =>
    exact .of_part (fun hus => fits_ofTokens hus (by simp) rfl rfl nofun) hts hsub

theorem fits_markerPhrase {kinds : List Kind} {m : MarkerPhrase} (hts : Token.Laid P ts)
    (h : markerPhrase kinds ts = .ok m) : ∀ c ∈ m.references.map Node.reference, c.Fits P ts :=
  List.forall_mem_map.2 fun r hr => (mentioned_splitMarker h r hr).fits hts

theorem fits_looseCondition (hts : Token.Laid P ts) (hne : ts ≠ []) :
    (Node.expr (looseCondition ts)).Fits P ts := by
  rw [looseCondition]
  split
  · next m hm =>
    refine fits_ofTokens hts hne rfl rfl ?_
    simp only [children, Expr.children, List.forall_mem_map]
    intro r hr
    have hmentioned := mentioned_splitMarker hm r (List.mem_append_left _ hr)
    exact fits_single (hmentioned.fits hts) rfl rfl rfl
  · exact fits_ofTokens hts hne rfl rfl (List.forall_mem_nil _)

theorem PlainFrom.fits {s : Stmt} (h : PlainFrom room s ts) (hts : Token.Laid P ts) :
    (Node.stmt s).Fits P ts := by
  cases h with
  | declared h => exact fits_single (h.fits hts) rfl rfl rfl
  | @unit name n the verb amount unit us hthe hname =>
    refine fits_over hts (by simp) rfl rfl ?_
    simp only [children, Stmt.children, List.forall_mem_cons]
    refine ⟨fits_plain hts (by grind) hname.1 rfl, ?_, ?_, List.forall_mem_nil _⟩
    · exact fits_leaf (t := amount) hts (by simp) rfl rfl rfl
    · exact fits_leaf (t := unit) hts (by simp) rfl rfl rfl
  | constant hthe hname hverb he =>
    refine fits_over hts (by simp) rfl rfl ?_
    simp only [children, Stmt.children, List.forall_mem_cons]
    exact ⟨fits_plain hts (by grind) hname.1 rfl, .of_part he.fits hts (by grind),
      List.forall_mem_nil _⟩
  | @pointer name base article verb one pointer particle us vs harticle hname hverb hone hpointer hto hbase =>
    refine fits_over hts (by simp) rfl rfl ?_
    simp only [children, Stmt.children, List.forall_mem_cons]
    have hsub : (article :: us).Sublist
        (article :: (us ++ verb :: one :: pointer :: particle :: vs)) := by grind
    exact ⟨fits_plain hts hsub (by simp) rfl, .of_part hbase.fits hts (by grind),
      List.forall_mem_nil _⟩
  | shape harticle hname hverb hbase =>
    refine fits_shape hts (by simp) (List.forall_mem_singleton.2 ?_) (List.forall_mem_nil _)
    exact .of_part hbase.fits hts (by grind)
  | shapeWith harticle hname hverb hbase hwith hslots =>
    refine fits_shape hts (by simp) (List.forall_mem_singleton.2 ?_) fun s hs => ?_
    · exact .of_part hbase.fits hts (by grind)
    · exact .of_part (fun hus => hslots.fits hus s hs) hts (by grind)
  | shapeOf harticle hname hverb hslots =>
    refine fits_shape hts (by simp) (List.forall_mem_nil _) fun s hs => ?_
    exact .of_part (fun hus => hslots.fits hus s hs) hts (by grind)
  | action h => exact fits_single (h.fits hts) rfl rfl rfl
  | @result value opening us hopening hvalue =>
    have hvalue : (Node.expr value).Fits P (opening ++ us) := .of_part hvalue.fits hts (by grind)
    exact fits_over hts hvalue.held.ne_nil rfl rfl (List.forall_mem_singleton.2 hvalue)
  | invocation hm hwords =>
    have hreferences := fits_markerPhrase hts hm
    rw [MarkerPhrase.references, List.map_append] at hreferences
    exact fits_over hts (ne_nil_of_words hm hwords) rfl rfl hreferences

/-! Headers, conditions and their branches. -/

theorem LabelFrom.fits {l : Label} (h : LabelFrom l ts) (hts : Token.Laid P ts) :
    (Node.label l).Fits P ts := by
  cases h with
  | @header keyword us m hkeyword hm hwords =>
    have hreferences (hus : Token.Laid P us) := fits_markerPhrase hus hm
    rw [MarkerPhrase.references, List.map_append] at hreferences
    refine fits_ofTokens hts (by simp [ne_nil_of_words hm hwords]) rfl rfl fun c hc => ?_
    exact .of_part (fun hus => hreferences hus c hc) hts (by grind)

theorem ConditionFrom.fits {e : Expr} (h : ConditionFrom room e ts) (hts : Token.Laid P ts) :
    (Node.expr e).Fits P ts := by
  cases h with
  | comparison h => exact h.fits hts
  | loose hne => exact fits_looseCondition hts hne

theorem fits_underHeader {l : Label} {s : Stmt} (hl : (Node.label l).Fits P ts)
    (hs : (Node.stmt s).Fits P ts) : (Node.stmt (.underHeader l s)).Fits P ts :=
  fits_pair hl hs rfl rfl rfl

theorem fits_noBody {l : Label} (hl : (Node.label l).Fits P ts) :
    (Node.stmt (.noBody l)).Fits P ts :=
  ⟨.intro hl.nested.sits nofun .nil nofun, hl.held⟩

theorem fits_ofUnread (hts : Token.Laid P ts) (hne : ts ≠ []) (hsignificant : ∀ t ∈ ts, t.isSignificant) :
    (Node.stmt (.ofUnread ts)).Fits P ts := by
  refine fits_ofTokens hts hne ?_ rfl nofun
  simp only [Stmt.ofUnread, List.filter_eq_self.2 hsignificant]
  rfl

theorem StmtFrom.fits {s : Stmt} (h : StmtFrom room s ts) (hts : Token.Laid P ts) :
    (Node.stmt s).Fits P ts := by
  induction h with
  | plain h => exact h.fits hts
  | @conditional room test branch opening separator ts us piece hif htest hseparator hpiece hbranch ih =>
    have hsub : piece.Sublist us := Token.sublist_of_mem_splitAt (hpiece ▸ List.mem_singleton_self _)
    refine fits_over hts (by simp) rfl rfl (List.forall_mem_cons.2 ⟨?_, List.forall_mem_singleton.2 ?_⟩)
    · exact .of_part htest.fits hts (by grind)
    · exact .of_part (fun hus => .of_part ih hus hsub) hts (by grind)
  | @block room test body opening separator ts us hif htest hseparator hbody hlength hbranch ih =>
    have hstmt (hus : Token.Laid P us) : ∀ s ∈ body, (Node.stmt s).Fits P us :=
      forall_mem_branches hlength fun b hb hsub => .of_part (ih b hb) hus hsub
    have hblock (hus : Token.Laid P us) : (Node.stmt (.block body (.over us))).Fits P us := by
      obtain ⟨first, hfirst⟩ := List.exists_mem_of_ne_nil body hbody
      exact fits_over hus (hstmt hus first hfirst).held.ne_nil rfl rfl (List.forall_mem_map.2 (hstmt hus))
    refine fits_over hts (by simp) rfl rfl (List.forall_mem_cons.2 ⟨?_, List.forall_mem_singleton.2 ?_⟩)
    · exact .of_part htest.fits hts (by grind)
    · exact .of_part hblock hts (by grind)
  | labeled hlabel hbody ih =>
    exact fits_underHeader (.of_part hlabel.fits hts (by grind)) (.of_part ih hts (by grind))
  | noBody hlabel =>
    have hlabel := Fits.of_part hlabel.fits hts (by grind)
    exact fits_underHeader hlabel (fits_noBody hlabel)
  | unread hne hsignificant => exact fits_ofUnread hts hne hsignificant
  | uncommented h ih => exact .of_part ih hts (withoutComments_sublist true _)

/-- What was read of a sentence, the statement or the header, is well nested, and the
    tokens hold it. -/
def Sentence.Fits (P : Nat → Prop) (ts : List Token) : Sentence → Prop
  | .stmt s => (Node.stmt s).Fits P ts
  | .header l _ => (Node.label l).Fits P ts

theorem SentenceFrom.fits {s : Sentence} (h : SentenceFrom room s ts)
    (hts : Token.Laid P ts) : s.Fits P ts := by
  cases h with
  | stmt h => exact h.fits hts
  | header hlabel | body hlabel => exact .of_part hlabel.fits hts (by grind)

theorem BareFrom.fits {n : Node} (h : BareFrom room n ts) (hts : Token.Laid P ts) : n.Fits P ts := by
  cases h with
  | reference h => exact h.fits hts
  | expression h => exact h.fits hts
  | action h => exact h.fits hts
  | declaration h => exact h.fits hts

end Prose.Grammar
