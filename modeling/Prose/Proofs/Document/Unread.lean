import Prose.Proofs.Document.Conditionals
import Prose.Proofs.Document.Nested
import Prose.Proofs.Token.Respacing

/- What stays unread. Every invalid statement keeps tokens of the text, in their order, and
   shows them with single spaces between them. The text that it shows is read as the tokens
   that it keeps: for tokens of a text it does not matter how they are laid out. -/
namespace Prose

open Grammar

variable {T : List Token → Prop} {ts : List Token} {s : Stmt}

/-! What the invalid statements of a tree keep. -/

namespace Node

variable {n : Node}

/-- All invalid statements of a tree keep tokens with a property. -/
def KeepsOnly (T : List Token → Prop) (n : Node) : Prop :=
  ∀ tokens span, stmt (.invalid tokens span) ∈ n.preorder → T tokens

theorem keepsOnly_of_children (hn : ∀ tokens span, n = stmt (.invalid tokens span) → T tokens)
    (h : ∀ c ∈ n.children, c.KeepsOnly T) : n.KeepsOnly T := by
  intro tokens span hmem
  rw [preorder_eq] at hmem
  rcases List.mem_cons.1 hmem with hself | hbelow
  · exact hn tokens span hself.symm
  · obtain ⟨c, hc, hbelow⟩ := List.mem_flatMap.1 hbelow
    exact h c hc tokens span hbelow

/-- A node that is no invalid statement. -/
theorem keepsOnly_below (hn : ∀ tokens span, n ≠ stmt (.invalid tokens span))
    (h : ∀ c ∈ n.children, c.KeepsOnly T) : n.KeepsOnly T :=
  keepsOnly_of_children (fun tokens span hself => absurd hself (hn tokens span)) h

/-- Where there are no statements, nothing is kept. -/
theorem keepsOnly_of_hasStatements (hn : n.hasStatements = false) : n.KeepsOnly T := by
  intro tokens span hmem
  have hnone := forall_mem_preorder (fun _ _ => hasStatements_of_mem_children) n hn _ hmem
  cases hnone

theorem keepsOnly_ofUnread (h : T (ts.filter Token.isSignificant)) :
    (stmt (.ofUnread ts)).KeepsOnly T := by
  refine keepsOnly_of_children (fun tokens span hself => ?_) nofun
  obtain ⟨rfl, -⟩ := Stmt.invalid.inj (stmt.inj hself)
  exact h

theorem keepsOnly_noBody (l : Label) : (stmt (.noBody l)).KeepsOnly T :=
  keepsOnly_below nofun nofun

theorem keepsOnly_underHeader {l : Label} (h : (stmt s).KeepsOnly T) :
    (stmt (.underHeader l s)).KeepsOnly T :=
  keepsOnly_below nofun
    (List.forall_mem_cons.2 ⟨keepsOnly_of_hasStatements rfl, List.forall_mem_singleton.2 h⟩)

theorem keepsOnly_conditional {test : Expr} {span : Span} (h : (stmt s).KeepsOnly T) :
    (stmt (.conditional test s span)).KeepsOnly T :=
  keepsOnly_below nofun
    (List.forall_mem_cons.2 ⟨keepsOnly_of_hasStatements rfl, List.forall_mem_singleton.2 h⟩)

theorem keepsOnly_document {d : Document} {L : Label → Prop}
    (h : ∀ p ∈ d.paragraphs, p.All (fun s => (stmt s).KeepsOnly T) L) : (document d).KeepsOnly T := by
  refine keepsOnly_below nofun (List.forall_mem_map.2 fun p hp => keepsOnly_below nofun ?_)
  refine List.forall_mem_append.2 ⟨List.forall_mem_map.2 fun l _ => ?_,
    List.forall_mem_map.2 (h p hp).statements⟩
  exact keepsOnly_of_hasStatements rfl

end Node

open Node

/-! What is read of tokens. A branch keeps tokens of the statement that it belongs to. -/

theorem Grammar.PlainFrom.keepsOnly {room : Nat} (h : PlainFrom room s ts) : (stmt s).KeepsOnly T := by
  refine keepsOnly_below (fun tokens span => ?_)
    fun c hc => keepsOnly_of_hasStatements (h.hasStatements_children c hc)
  cases h <;> exact nofun

theorem Grammar.BareFrom.keepsOnly {room : Nat} {n : Node} (h : BareFrom room n ts) :
    n.KeepsOnly T := by
  apply keepsOnly_of_hasStatements
  cases h <;> rfl

theorem LooseDeclaration.Declares.keepsOnly {span : Span} (h : Declares span s) :
    (stmt s).KeepsOnly T := by
  cases h with
  | variableDeclaration | shapeDeclaration =>
    exact keepsOnly_below nofun (List.forall_mem_singleton.2 (keepsOnly_of_hasStatements rfl))

section Kept

variable (hpart : ∀ {ts us : List Token}, T ts → us.Sublist ts → T us)
include hpart

theorem Grammar.StmtFrom.keepsOnly {room : Nat} (h : StmtFrom room s ts) (hts : T ts) :
    (stmt s).KeepsOnly T := by
  induction h with
  | plain h => exact h.keepsOnly
  | @conditional room test branch opening separator ts us piece hif htest hseparator hpiece hbranch ih =>
    have hsub : piece.Sublist us := Token.sublist_of_mem_splitAt (hpiece ▸ List.mem_singleton_self _)
    exact keepsOnly_conditional (ih (hpart (hpart hts (by grind)) hsub))
  | @block room test body opening separator ts us hif htest hseparator hbody hlength hbranch ih =>
    have hus : T us := hpart hts (by grind)
    refine keepsOnly_conditional (keepsOnly_below nofun (List.forall_mem_map.2 ?_))
    exact forall_mem_branches hlength fun b hb hsub => ih b hb (hpart hus hsub)
  | labeled hlabel hbody ih => exact keepsOnly_underHeader (ih (hpart hts (by grind)))
  | noBody hlabel => exact keepsOnly_underHeader (keepsOnly_noBody _)
  | unread => exact keepsOnly_ofUnread (hpart hts List.filter_sublist)
  | uncommented h ih => exact ih (hpart hts (withoutComments_sublist true _))

/-! Whole texts. -/

theorem governs_keepsOnly (hsignificant : ∀ {ts}, T ts → ∀ t ∈ ts, t.isSignificant) (r : Reading) :
    Governs r T (fun s => (stmt s).KeepsOnly T) fun _ => True where
  part := hpart
  significant := hsignificant
  sentence hts h := by
    cases h with
    | stmt h => exact h.keepsOnly hpart hts
    | header | body => trivial
  loose _ h := (LooseDeclaration.declares_parse h).keepsOnly
  unread _ hts := keepsOnly_ofUnread (hpart hts List.filter_sublist)
  noBody {l} _ := keepsOnly_noBody l
  underHeader _ hs := keepsOnly_underHeader hs
  merge _ _ := trivial

/-- Whatever a text is read as, what stays unread has a property that the tokens of the text,
    of its paragraphs and of the text without its comments have. -/
theorem ReadAs.keepsOnly {settings : ReadingSettings} {text : String} {root : Node}
    (hroot : ReadAs settings text root)
    (hsignificant : ∀ {ts}, T ts → ∀ t ∈ ts, t.isSignificant)
    (hparagraphs : ∀ strict, ∀ span ∈ Layout.paragraphSpans text.toList,
      T ((Reading.ofText settings strict text).tokens span))
    (huncommented : T (tokensOf settings text)) (hwhole : T (Token.significant (Token.scan 0 text))) :
    root.KeepsOnly T := by
  have hparse (strict : Bool) : (Node.document (Document.parse settings text strict)).KeepsOnly T :=
    keepsOnly_document (Document.all_parse_of_unread (governs_keepsOnly hpart hsignificant _)
      (hparagraphs strict) (keepsOnly_ofUnread hwhole))
  cases hroot with
  | document strict => exact hparse strict
  | text h =>
    rcases parseText_eq_ok h with rfl | rfl | hnode
    · exact hparse false
    · exact keepsOnly_of_children nofun nofun
    · have hparsed : T (withoutComments false ((tokensOf settings text).filter Token.isSignificant)) :=
        hpart huncommented ((withoutComments_sublist false _).trans List.filter_sublist)
      rcases derives_parseNode hnode with hbare | ⟨s, rfl, hs⟩
      · exact hbare.keepsOnly
      · exact hs.keepsOnly hpart hparsed

end Kept

open Token in
/-- Layout between tokens has no influence. The tokens of any text, with single spaces between
    them, are read as the same tokens, and so is the text that an invalid statement shows: it
    is read as the tokens that the statement keeps. -/
theorem layout_immaterial :
    (∀ (offset offset' : Nat) (text : String),
      (significant (scan offset' (joinTexts (significant (scan offset text))))).map face =
        (significant (scan offset text)).map face) ∧
    ∀ (settings : ReadingSettings) (text : String) (root : Node), ReadAs settings text root →
      ∀ s, .stmt s ∈ root.preorder → ∀ shown, s.invalidText? = some shown →
        ∃ tokens span, s = .invalid tokens span ∧
          (significant (scan 0 shown)).map face = tokens.map face := by
  refine ⟨fun offset offset' text => (respaceable_scanFrom ..).map_face offset', ?_⟩
  intro settings text root hroot s hs shown hshown
  have hkeeps : root.KeepsOnly Respaceable :=
    hroot.keepsOnly Respaceable.sublist (fun h t ht => (h.alone t ht).significant)
      (fun strict span _ => respaceable_scanFrom ..) (respaceable_scanFrom ..) (respaceable_scanFrom ..)
  cases s with
  | invalid tokens span =>
    obtain rfl := Option.some.inj hshown
    exact ⟨tokens, span, rfl, (hkeeps tokens span hs).map_face 0⟩
  | _ => cases hshown

set_option maxRecDepth 4096 in
/-- Tokens that touch each other, the last of them a quote that is not closed. -/
theorem layout_immaterial_touching :
    let text := "add(y)5's \"a"
    let shown := "add (y) 5 's \"a"
    let s : Stmt := .ofUnread (Token.scan 0 text)
    let root : Node := .document ⟨[⟨[s], none, ⟨0, 12⟩⟩], ⟨0, 12⟩⟩
    ReadAs {} text root ∧ .stmt s ∈ root.preorder ∧ s.invalidText? = some shown ∧
      ∃ tokens span, s = .invalid tokens span ∧
        (Token.significant (Token.scan 0 shown)).map Token.face = tokens.map Token.face := by
  intro text shown s root
  have hread : .document (Document.parse {} text) = root := by
    simp only [root, s]
    cbv
  have hroot : ReadAs {} text root := hread ▸ .document false
  have hs : .stmt s ∈ root.preorder :=
    Node.preorder_subset (.head _) (Node.mem_preorder_of_mem_children (.head _))
  have hshown : s.invalidText? = some shown := by cbv
  exact ⟨hroot, hs, hshown, layout_immaterial.2 {} text root hroot s hs shown hshown⟩

end Prose
