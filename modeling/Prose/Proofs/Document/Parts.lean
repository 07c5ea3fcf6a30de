import Prose.Proofs.Document.Everywhere
import Prose.Proofs.Document.Nested
import Prose.Proofs.Grammar.Parts
import Prose.Proofs.Loose.Outcome
import Prose.Proofs.Token.Spelling

/- Parts of documents. A property of nodes that all references and all operations have that are
   read of tokens like those of a text is one of everything that the text is read as. -/
namespace Prose

open Grammar Node

variable {Q : Node → Prop} {T : List Token → Prop} {s : Stmt} {n : Node}

/-- A loose declaration uses no references, and its value is a literal, if it has one. -/
theorem LooseDeclaration.Declares.everywhere {span : Span} (h : Declares span s)
    (hplain : ∀ n, n.isPlain = true → Q n) : (Node.stmt s).Everywhere Q := by
  cases h with
  | shapeDeclaration => exact everywhere_shape hplain
  | variableDeclaration hvalue =>
    refine everywhere_single (hplain _ rfl) rfl (everywhere_variableDeclaration hplain fun e he => ?_)
    have hliteral := hvalue e (Option.mem_toList.1 he)
    cases e with
    | int | text => exact everywhere_leaf (hplain _ rfl) rfl
    | _ => exact hliteral.elim

theorem pervades_everywhere {r : Reading} (ha : Admits r.settings.maxDepth T Q)
    (hsignificant : ∀ {ts}, T ts → ∀ t ∈ ts, t.isSignificant) :
    Pervades r T (fun s => (Node.stmt s).Everywhere Q) fun l => (Node.label l).Everywhere Q where
  part := ha.part
  significant := hsignificant
  sentence hts h := by
    cases h with
    | stmt h => exact h.everywhere ha hts
    | header hlabel | body hlabel => exact hlabel.everywhere ha
  loose _ h := (LooseDeclaration.declares_parse h).everywhere ha.plain
  anyUnread := everywhere_ofUnread ha.plain
  noBody {l} _ := everywhere_noBody ha.plain l
  underHeader := everywhere_underHeader ha.plain
  merge hl hm := by
    refine everywhere_of_children (ha.plain _ rfl) fun c hc => ?_
    rcases Label.mem_children_merge hc with hc | hc
    · exact hl.of_mem_children hc
    · exact hm.of_mem_children hc

theorem everywhere_document {d : Document} (hplain : ∀ n, n.isPlain = true → Q n)
    (h : ∀ p ∈ d.paragraphs,
      p.All (fun s => (Node.stmt s).Everywhere Q) fun l => (Node.label l).Everywhere Q) :
    (Node.document d).Everywhere Q := by
  refine everywhere_of_children (hplain _ rfl) (List.forall_mem_map.2 fun p hp => ?_)
  refine everywhere_of_children (hplain _ rfl) (List.forall_mem_append.2 ⟨?_, ?_⟩)
  · exact List.forall_mem_map.2 fun l hl => (h p hp).label l (Option.mem_toList.1 hl)
  · exact List.forall_mem_map.2 (h p hp).statements

section Texts

variable {settings : ReadingSettings} {text : String}

theorem everywhere_parseNode {ts : List Token} (ha : Admits settings.maxDepth T Q)
    (hts : T (Token.significant ts)) (h : parseNode settings ts = .ok n) : n.Everywhere Q := by
  have hparsed : T (withoutComments false (ts.filter Token.isSignificant)) :=
    ha.part hts (withoutComments_sublist false _)
  rcases derives_parseNode h with hbare | ⟨s, rfl, hs⟩
  · exact hbare.everywhere ha hparsed
  · exact hs.everywhere ha hparsed

/-- Whatever a text is read as, everything in it has a property if the tokens that the text
    gives are such that what is read of them has. -/
theorem ReadAs.everywhere (hroot : ReadAs settings text n) (ha : Admits settings.maxDepth T Q)
    (hsignificant : ∀ {ts}, T ts → ∀ t ∈ ts, t.isSignificant)
    (hparagraphs : ∀ strict, ∀ span ∈ Layout.paragraphSpans text.toList,
      T ((Reading.ofText settings strict text).tokens span))
    (hwhole : T (tokensOf settings text)) : n.Everywhere Q := by
  have hparse (strict : Bool) : (Node.document (Document.parse settings text strict)).Everywhere Q :=
    everywhere_document ha.plain
      (Document.all_parse (pervades_everywhere ha hsignificant) (hparagraphs strict))
  cases hroot with
  | document strict => exact hparse strict
  | text h =>
    rcases parseText_eq_ok h with rfl | rfl | hnode
    · exact hparse false
    · exact everywhere_leaf (ha.plain _ rfl) rfl
    · exact everywhere_parseNode ha (ha.part hwhole List.filter_sublist) hnode

end Texts

/-! Operations. -/

/-- Significant tokens that are spelled as their kinds ask for. -/
def Token.AllSpelled (ts : List Token) : Prop := ∀ t ∈ ts, t.isSignificant ∧ t.Spelled

theorem Token.AllSpelled.part {ts us : List Token} (h : AllSpelled ts) (hsub : us.Sublist ts) :
    AllSpelled us :=
  fun t ht => h t (hsub.subset ht)

/-- The significant tokens of a text are spelled so. -/
theorem Token.allSpelled_significant {offset : Nat} {cs : List Char} :
    AllSpelled (significant (scanFrom offset cs)) := by
  intro t ht
  obtain ⟨hscan, hsignificant⟩ := List.mem_filter.1 ht
  exact ⟨hsignificant, spelled_of_mem_scanFrom hscan⟩

/-- If parts of an expression are joined by a sign, the expression is read as arithmetic from
    spelled tokens, and it is grouped as arithmetic should be. -/
def Node.Computed (room : Nat) (n : Node) : Prop :=
  ∀ e, n = .expr e → e.isJoined = true →
    ∃ ts, Token.AllSpelled ts ∧ ArithmeticFrom room e ts ∧ e.Arithmetic

theorem admits_computed (room : Nat) : Admits room Token.AllSpelled (Node.Computed room) where
  part := Token.AllSpelled.part
  plain n hn e he hjoined := by
    rw [he, isPlain, hjoined] at hn
    cases hn
  unowned _ := nofun
  reference {r ts} _ _ m hm e he := by
    have hmention := forall_mem_preorder (fun _ _ => isMention_of_mem_children) (.reference r) rfl m hm
    rw [he] at hmention
    cases hmention
  operation h harith hts e' he' _ := Node.expr.inj he' ▸ ⟨_, hts, h, harith⟩

/-- Whatever is returned for a text: what it is read as, or the statement or the bare node that
    its tokens are on their own, with its comment lines among them. -/
inductive Returned (settings : ReadingSettings) (text : String) : Node → Prop where
  | whole {n : Node} (h : ReadAs settings text n) : Returned settings text n
  | stmt {s : Stmt} (h : parseSentence settings (Token.scan 0 text) = .ok (.stmt s)) :
      Returned settings text (.stmt s)
  | node {n : Node} (h : parseNode settings (Token.scan 0 text) = .ok n) : Returned settings text n

/-- Every operation in what is returned is read from spelled tokens. -/
theorem Returned.computed {settings : ReadingSettings} {text : String}
    (h : Returned settings text n) : n.Everywhere (Node.Computed settings.maxDepth) := by
  have ha := admits_computed settings.maxDepth
  cases h with
  | whole h =>
    exact h.everywhere ha (fun hts t ht => (hts t ht).1)
      (fun _ _ _ => Token.allSpelled_significant) Token.allSpelled_significant
  | stmt h =>
    cases derives_sentenceWithin h with
    | stmt h =>
      exact h.everywhere ha (Token.allSpelled_significant.part (withoutComments_sublist true _))
  | node h => exact everywhere_parseNode ha Token.allSpelled_significant h

end Prose
