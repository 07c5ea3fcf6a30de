import Prose.Proofs.Grammar.DerivedSentence
import Prose.Proofs.Grammar.Markers
import Prose.Proofs.Tree.Parts

/- Parts of derived trees. A reference is read as one, with its owners, or is mentioned in a
   marker phrase, where nothing owns it. Parts of an expression are joined by a sign only where
   they are read as arithmetic. So a property of nodes that all references and all operations
   have that are read, and that asks nothing of other nodes, is one of all nodes of a tree. -/
namespace Prose.Grammar

open Node

/-- A property of nodes that those have that are read with so much room of tokens with another
    property. Parts of such tokens are such tokens. -/
structure Admits (room : Nat) (T : List Token → Prop) (Q : Node → Prop) : Prop where
  part : ∀ {ts us}, T ts → us.Sublist ts → T us
  plain : ∀ n, n.isPlain = true → Q n
  unowned : ∀ {r : Reference}, r.owners = [] → Q (.reference r)
  reference : ∀ {r ts}, ReferenceFrom room r ts → T ts → (Node.reference r).Everywhere Q
  operation : ∀ {e ts}, ArithmeticFrom room e ts → e.Arithmetic → T ts → Q (.expr e)

variable {room : Nat} {T : List Token → Prop} {Q : Node → Prop} {ts : List Token} {e : Expr}

theorem ArithmeticFrom.mono {more : Nat} (h : ArithmeticFrom room e ts) (hle : room ≤ more) :
    ArithmeticFrom more e ts := by
  induction h with
  | operand h =>
    cases h with
    | literal h => exact .operand (.literal h)
    | slot howner hapostrophe hname => exact .operand (.slot howner hapostrophe hname)
    | reference h => exact .operand (.reference (h.mono hle))
  | math _ hop _ ihfirst ihsecond => exact .math ihfirst hop ihsecond

/-- With less room fewer references are read. -/
theorem Admits.less (ha : Admits (room + 1) T Q) : Admits room T Q where
  part := ha.part
  plain := ha.plain
  unowned := ha.unowned
  reference h hts := ha.reference (h.mono (Nat.le_succ room)) hts
  operation h harith hts := ha.operation (h.mono (Nat.le_succ room)) harith hts

theorem Admits.name (ha : Admits room T Q) {name : String} {span : Span} :
    (Node.reference (.plain name span)).Everywhere Q :=
  everywhere_unowned (ha.unowned rfl) rfl

/-! Expressions. -/

theorem LiteralFrom.everywhere (h : LiteralFrom e ts) (ha : Admits room T Q) :
    (Node.expr e).Everywhere Q := by
  cases h with
  | int | text | bytes | ratio | null => exact everywhere_leaf (ha.plain _ rfl) rfl
  | inches =>
    exact everywhere_single (ha.plain _ rfl) rfl (everywhere_leaf (ha.plain _ rfl) rfl)

theorem ArithmeticFrom.everywhere (h : ArithmeticFrom room e ts) (harith : e.Arithmetic)
    (ha : Admits room T Q) (hts : T ts) : (Node.expr e).Everywhere Q := by
  induction h with
  | operand h =>
    have hself := ha.operation (.operand h) harith hts
    cases h with
    | literal h => exact h.everywhere ha
    | slot howner => exact everywhere_pair hself rfl (howner.everywhere ha) ha.name
    | reference h => exact everywhere_single hself rfl (ha.reference h hts)
  | math hfirst hop hsecond ihfirst ihsecond =>
    obtain ⟨hleft, hright, -⟩ := id harith
    exact everywhere_pair (ha.operation (.math hfirst hop hsecond) harith hts) rfl
      (ihfirst hleft (ha.part hts (by grind))) (ihsecond hright (ha.part hts (by grind)))

theorem ComparisonFrom.everywhere (h : ComparisonFrom room e ts) (ha : Admits room T Q) (hts : T ts) :
    (Node.expr e).Everywhere Q := by
  cases h with
  | comparison hfirst _ hsecond hleft hright =>
    exact everywhere_pair (ha.plain _ rfl) rfl (hfirst.everywhere hleft ha (ha.part hts (by grind)))
      (hsecond.everywhere hright ha (ha.part hts (by grind)))

theorem ExprFrom.everywhere (h : ExprFrom room e ts) (ha : Admits room T Q) (hts : T ts) :
    (Node.expr e).Everywhere Q := by
  cases h with
  | arithmetic h hgrouped => exact h.everywhere hgrouped ha hts
  | comparison h => exact h.everywhere ha hts

theorem ActionFrom.everywhere {inPlace : Bool} (h : ActionFrom room inPlace e ts)
    (ha : Admits room T Q) (hts : T ts) : (Node.expr e).Everywhere Q := by
  cases h with
  | sum _ hoperand htarget | factor _ htarget _ hoperand | put _ hoperand _ htarget
  | letBe _ htarget _ _ hoperand =>
    exact everywhere_pair (ha.plain _ rfl) rfl (ha.reference htarget (ha.part hts (by grind)))
      (hoperand.everywhere ha (ha.part hts (by grind)))

/-! Statements without a branch. -/

theorem DeclarationFrom.everywhere {d : VariableDeclaration} (h : DeclarationFrom room d ts)
    (ha : Admits room T Q) (hts : T ts) : (Node.variableDeclaration d).Everywhere Q := by
  cases h with
  | declared _ _ _ _ hvalue =>
    cases hvalue with
    | none => exact everywhere_variableDeclaration ha.plain nofun
    | some _ _ he =>
      have he := he.everywhere ha (ha.part hts (by grind))
      exact everywhere_variableDeclaration ha.plain (List.forall_mem_singleton.2 he)

/-- What a marker phrase mentions, as parameters or as the result. -/
theorem everywhere_mentioned {kinds : List Kind} {m : MarkerPhrase} (ha : Admits room T Q)
    (h : markerPhrase kinds ts = .ok m) :
    ∀ c ∈ m.parameters.map Node.reference ++ m.result.toList.map Node.reference, c.Everywhere Q := by
  rw [← List.map_append]
  refine List.forall_mem_map.2 fun r hr => ?_
  cases mentioned_splitMarker h r hr with
  | intro => exact ha.name

theorem everywhere_looseCondition (ha : Admits room T Q) (ts : List Token) :
    (Node.expr (looseCondition ts)).Everywhere Q := by
  rw [looseCondition]
  split
  · next m hm =>
    refine everywhere_of_children (ha.plain _ rfl) ?_
    simp only [children, Expr.children, List.forall_mem_map]
    intro r hr
    have hmentioned := everywhere_mentioned ha hm (.reference r)
      (List.mem_append_left _ (List.mem_map_of_mem hr))
    exact everywhere_single (ha.plain _ rfl) rfl hmentioned
  · exact everywhere_leaf (ha.plain _ rfl) rfl

theorem PlainFrom.everywhere {s : Stmt} (h : PlainFrom room s ts) (ha : Admits room T Q) (hts : T ts) :
    (Node.stmt s).Everywhere Q := by
  cases h with
  | declared h => exact everywhere_single (ha.plain _ rfl) rfl (h.everywhere ha hts)
  | unit =>
    refine everywhere_of_children (ha.plain _ rfl) ?_
    exact List.forall_mem_cons.2 ⟨ha.name, List.forall_mem_cons.2
      ⟨everywhere_leaf (ha.plain _ rfl) rfl, List.forall_mem_singleton.2 ha.name⟩⟩
  | constant _ _ _ he => exact everywhere_pair (ha.plain _ rfl) rfl ha.name (he.everywhere ha)
  | pointer =>
    exact everywhere_pair (ha.plain _ rfl) rfl ha.name (everywhere_leaf (ha.plain _ rfl) rfl)
  | shape | shapeWith | shapeOf => exact everywhere_shape ha.plain
  | action h => exact everywhere_single (ha.plain _ rfl) rfl (h.everywhere ha hts)
  | result _ hvalue =>
    exact everywhere_single (ha.plain _ rfl) rfl (hvalue.everywhere ha (ha.part hts (by grind)))
  | invocation hm => exact everywhere_of_children (ha.plain _ rfl) (everywhere_mentioned ha hm)

/-! Headers, conditions and their branches. -/

theorem LabelFrom.everywhere {l : Label} (h : LabelFrom l ts) (ha : Admits room T Q) :
    (Node.label l).Everywhere Q := by
  cases h with
  | header _ hm => exact everywhere_of_children (ha.plain _ rfl) (everywhere_mentioned ha hm)

theorem ConditionFrom.everywhere (h : ConditionFrom room e ts) (ha : Admits room T Q) (hts : T ts) :
    (Node.expr e).Everywhere Q := by
  cases h with
  | comparison h => exact h.everywhere ha hts
  | loose => exact everywhere_looseCondition ha _

theorem StmtFrom.everywhere {s : Stmt} (h : StmtFrom room s ts) (ha : Admits room T Q) (hts : T ts) :
    (Node.stmt s).Everywhere Q := by
  induction h with
  | plain h => exact h.everywhere ha hts
  | @conditional room test branch opening separator ts us piece hif htest hseparator hpiece hbranch ih =>
    have hsub : piece.Sublist us := Token.sublist_of_mem_splitAt (hpiece ▸ List.mem_singleton_self _)
    have hus : T us := ha.part hts (by grind)
    exact everywhere_pair (ha.plain _ rfl) rfl (htest.everywhere ha (ha.part hts (by grind)))
      (ih ha.less (ha.part hus hsub))
  | @block room test body opening separator ts us hif htest hseparator hbody hlength hbranch ih =>
    have hus : T us := ha.part hts (by grind)
    refine everywhere_pair (ha.plain _ rfl) rfl (htest.everywhere ha (ha.part hts (by grind)))
      (everywhere_of_children (ha.plain _ rfl) (List.forall_mem_map.2 ?_))
    exact forall_mem_branches hlength fun b hb hsub => ih b hb ha.less (ha.part hus hsub)
  | labeled hlabel hbody ih =>
    exact everywhere_underHeader ha.plain (hlabel.everywhere ha) (ih ha (ha.part hts (by grind)))
  | noBody hlabel =>
    exact everywhere_underHeader ha.plain (hlabel.everywhere ha) (everywhere_noBody ha.plain _)
  | unread => exact everywhere_ofUnread ha.plain _
  | uncommented h ih => exact ih ha (ha.part hts (withoutComments_sublist true _))

theorem BareFrom.everywhere {n : Node} (h : BareFrom room n ts) (ha : Admits room T Q) (hts : T ts) :
    n.Everywhere Q := by
  cases h with
  | reference h => exact ha.reference h hts
  | expression h => exact h.everywhere ha hts
  | action h => exact h.everywhere ha hts
  | declaration h => exact h.everywhere ha hts

end Prose.Grammar
