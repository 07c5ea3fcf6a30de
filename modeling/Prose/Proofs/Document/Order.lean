import Prose.Proofs.Document.Conditionals
import Prose.Proofs.Document.EntryPoints
import Prose.Proofs.Document.Nested
import Prose.Proofs.Document.Paragraphs
import Prose.Proofs.Tree.Order

/- The invalid statements of a document in the order of the text. The statements of a branch
   are read of runs of tokens that stand one behind the other, the statements of a paragraph
   of its fragments, and the paragraphs of spans of the text. So what stays unread stands one
   behind the other, however deep in the tree it is. -/
namespace Prose

open Grammar Node Text

variable {P : Nat → Prop} {ts : List Token} {s : Stmt}

/-! What is read of tokens. -/

/-- No significant token of a text is empty. -/
theorem Token.nonempty_of_mem_scanFrom {offset : Nat} {cs : List Char} {t : Token}
    (h : t ∈ scanFrom offset cs) (hsignificant : t.isSignificant = true) : t.start < t.stop := by
  have hkind : t.kind ≠ .stop := by
    rintro hstop
    simp [isSignificant, hstop] at hsignificant
  obtain ⟨c, rest, -, htext⟩ := lexeme_of_mem_scanFrom h hkind
  obtain ⟨before, after, -, hstart, hstop⟩ := exists_part_of_mem_scanFrom h
  have hsize := c.utf8Size_pos
  rw [htext, byteLength_cons] at hstop
  omega

theorem Span.Covers.filled {cs : List Char} {span : Span} (h : Covers P cs span) :
    Token.Filled P (Token.significant (Token.scanFrom span.start cs)) where
  laid := h.laid
  significant _ ht := (List.mem_filter.1 ht).2
  nonempty _ ht := Token.nonempty_of_mem_scanFrom (List.mem_filter.1 ht).1 (List.mem_filter.1 ht).2

namespace Grammar

theorem PlainFrom.inOrder {room : Nat} (h : PlainFrom room s ts) : (stmt s).InOrder :=
  inOrder_plain (by cases h <;> rfl) h.hasStatements_children

/-- The statements of a block are read of the runs between semicolons, one of each. -/
theorem pairwise_branches {room : Nat} {body : List Stmt} {us : List Token} (hus : Token.Laid P us)
    (hlength : body.length = (Token.splitAt .semicolon us).length)
    (hbranch : ∀ b ∈ body.zip (Token.splitAt .semicolon us), StmtFrom room b.1 b.2) :
    body.Pairwise fun s t => s.span.stop ≤ t.span.start := by
  have hflat : (Token.splitAt .semicolon us).flatten.Sublist us := by
    rw [Token.flatten_splitAt]
    exact List.filter_sublist
  have hfits : List.Forall₂ (fun s run => (stmt s).Fits P run) body
      (Token.splitAt .semicolon us) := by
    refine List.forall₂_iff_zip.2 ⟨hlength, fun {s run} hmem => ?_⟩
    have hrun : run.Sublist us := Token.sublist_of_mem_splitAt (List.of_mem_zip hmem).2
    exact (hbranch _ hmem).fits (hus.sublist hrun)
  exact Reading.pairwise_statements (hus.sublist hflat) hfits.flip

theorem StmtFrom.inOrder {room : Nat} (h : StmtFrom room s ts) (hts : Token.Filled P ts) :
    (stmt s).InOrder := by
  induction h with
  | plain h => exact h.inOrder
  | @conditional room test branch opening separator ts us piece _ _ _ hpiece _ ih =>
    have hsub : piece.Sublist us :=
      Token.sublist_of_mem_splitAt (hpiece ▸ List.mem_singleton_self _)
    exact inOrder_conditional (ih ((hts.sublist (by grind)).sublist hsub))
  | @block room test body opening separator ts us hif htest hseparator hbody hlength hbranch ih =>
    have hus : Token.Filled P us := hts.sublist (by grind)
    refine inOrder_conditional (inOrder_block (pairwise_branches hus.laid hlength hbranch) ?_)
    exact forall_mem_branches hlength fun b hb hsub => ih b hb (hus.sublist hsub)
  | labeled hlabel hbody ih => exact inOrder_underHeader (ih (hts.sublist (by grind)))
  | noBody => exact inOrder_underHeader (inOrder_noBody _)
  | unread hne => exact inOrder_ofUnread hne hts
  | uncommented h ih => exact ih (hts.sublist (withoutComments_sublist true _))

end Grammar

/-- Whatever is read of tokens of a text is in order; of labels nothing is asked. -/
theorem governs_inOrder (P : Nat → Prop) (r : Reading) :
    Governs r (Token.Filled P) (fun s => (stmt s).InOrder) fun _ => True where
  part := Token.Filled.sublist
  significant hts := hts.significant
  sentence hts h := by
    cases h with
    | stmt h => exact h.inOrder hts
    | header | body => trivial
  loose _ h := by
    cases LooseDeclaration.declares_parse h with
    | variableDeclaration | shapeDeclaration =>
      exact inOrder_plain rfl (List.forall_mem_singleton.2 rfl)
  unread := inOrder_ofUnread
  noBody {l} _ := inOrder_noBody l
  underHeader _ hs := inOrder_underHeader hs
  merge _ _ := trivial

/-! Documents. -/

namespace Document

theorem inOrder_parse (settings : ReadingSettings) (text : String) :
    (document (parse settings text)).InOrder := by
  have hblanked := Layout.blanked_withoutComments settings.commentMarker text.toList
  have hstatements := all_read (governs_inOrder (Cut text.toList) _) (fun span hspan =>
    (Reading.covers_slice hblanked (Layout.sits_of_mem_paragraphSpans hspan)).filled)
    (read_parse settings text)
  refine inOrder_document ?_ fun p hp => inOrder_paragraph ?_ (hstatements p hp).statements
  · have hspans := Layout.pairwise_paragraphSpans text.toList
    rw [← map_span_paragraphs settings text] at hspans
    exact List.pairwise_map.1 hspans
  · have hnested := (nested_parse settings text false).of_mem_children (List.mem_map_of_mem hp)
    cases hnested.1 with
    | intro _ _ inOrder => exact inOrder

/-- The invalid statements of a document stand one behind the other. -/
theorem pairwise_invalids_parse (settings : ReadingSettings) (text : String) (strict : Bool) :
    (document (parse settings text strict)).invalids.Pairwise fun s t =>
      s.span.stop ≤ t.span.start ∧ s.span.start < t.span.start ∧ s.span.stop < t.span.stop := by
  rw [parse]
  split
  · next d hd =>
    have hparse : parse settings text = d := by
      rw [parse]
      cases strict with
      | false => rw [hd]
      | true => rw [read_lenient hd]
    subst hparse
    have horder := inOrder_parse settings text
    have hpairwise := horder.pairwise_invalids (nested_parse settings text false)
    refine hpairwise.imp_of_mem fun {s t} hs ht hle => ?_
    have hs' := horder.nonempty s hs
    have ht' := horder.nonempty t ht
    omega
  · -- where a strict reading failed, the whole text is one invalid statement
    have hone : (document (unread text)).invalids = [.ofUnread (Token.scan 0 text)] := by
      simp [invalids_eq, unread, children, Paragraph.children, Stmt.children, invalid?,
        Stmt.ofUnread]
    rw [hone]
    exact List.pairwise_singleton ..

end Document

/-- Invalid statements are found in order. The walk over any document gives exactly the invalid
    statements in the preorder of its tree, and in a document that was read of a text they are
    disjoint parts of the text, each of them further on than the one before. -/
theorem invalidStatements_inOrder :
    (∀ d : Document, d.invalidStatements = (document d).preorder.filterMap invalid?) ∧
    ∀ (settings : ReadingSettings) (text : String) (strict : Bool),
      (Document.parse settings text strict).invalidStatements.Pairwise fun s t =>
        s.span.stop ≤ t.span.start ∧ s.span.start < t.span.start ∧ s.span.stop < t.span.stop := by
  have hwalk (d : Document) : d.invalidStatements = (document d).invalids := by
    rw [Document.invalidStatements, invalidAmong_eq, List.flatMap_singleton]
  refine ⟨hwalk, fun settings text strict => ?_⟩
  rw [hwalk]
  exact Document.pairwise_invalids_parse settings text strict

set_option maxRecDepth 4096 in
example : (Document.parse {} "1 2. if a x is 1, run; the the; stop.\n\n, a.").invalidStatements.map
    Stmt.span = [⟨0, 3⟩, ⟨23, 30⟩, ⟨39, 42⟩] := by cbv

end Prose
