import Mathlib
import Prose.Proofs.Document.Chunks
import Prose.Proofs.Document.Contribution
import Prose.Proofs.Grammar.DerivedSentence

/- The ways into a document. A text that is read without being asked what it is may turn
   out to be a document, because a sentence ends in it or because its only sentence is
   always a statement. It then is the document that the document reader makes of it.
   One text is treated otherwise: where no token is left behind the comments, there is
   no paragraph either, although a comment makes a paragraph elsewhere. -/
namespace Prose

open Grammar

namespace Document

/-- A document has a paragraph for each chunk of its text, at its place. -/
theorem map_span_paragraphs (settings : ReadingSettings) (text : String) :
    (parse settings text).paragraphs.map Paragraph.span = Layout.paragraphSpans text.toList := by
  have hspans : List.Forall₂ (fun span p => span = Paragraph.span p)
      (Layout.paragraphSpans text.toList) (parse settings text).paragraphs := by
    refine (paragraphs_parse settings text).imp fun span p hp => ?_
    obtain ⟨cs, -, rfl⟩ := Reading.paragraph_eq_ok_iff.1 hp
    rfl
  rw [← List.forall₂_eq_eq_eq, List.forall₂_map_left_iff]
  exact hspans.flip.imp fun _ _ h => h.symm

/-- The paragraphs are as many as the runs of lines between blank ones. -/
theorem length_paragraphs (settings : ReadingSettings) (text : String) :
    (parse settings text).paragraphs.length =
      (((Layout.lines text.toList).splitOnP Layout.isBlankLine).filter
        fun run => !run.isEmpty).length := by
  have hspans := congrArg List.length (map_span_paragraphs settings text)
  have htexts := congrArg List.length (Layout.texts_chunks 0 (Layout.lines text.toList))
  simp only [List.length_map, Layout.paragraphSpans] at hspans htexts
  rw [hspans, htexts]

end Document

/-- A bare node is no document. -/
theorem parseNode_ne_document {settings : ReadingSettings} {ts : List Token} {d : Document} :
    parseNode settings ts ≠ .ok (.document d) := by
  intro h
  rcases derives_parseNode h with hbare | ⟨s, hs, -⟩
  · cases hbare
  · cases hs

/-- The tokens of a text, its comment lines left out. -/
def tokensOf (settings : ReadingSettings) (text : String) : List Token :=
  Token.significant (Token.scanFrom 0 (Layout.withoutComments settings.commentMarker text.toList))

/-- A text is read as the document that the document reader makes of it, or as what its
    tokens are read as on their own. Without a token it is a document without paragraphs. -/
theorem parseText_eq_ok {settings : ReadingSettings} {text : String} {n : Node}
    (h : parseText settings text = .ok n) :
    n = .document (Document.parse settings text) ∨ n = .document ⟨[], Document.spanOf text⟩ ∨
      parseNode settings (tokensOf settings text) = .ok n := by
  simp only [parseText] at h
  split at h
  · exact .inl (Except.ok.inj h).symm
  · split at h
    · exact .inr (.inl (Except.ok.inj h).symm)
    · split at h
      · split at h
        · -- a strict reading that gives something gives what a lenient one gives
          rcases hread : Document.read settings true text with e | d <;> rw [hread] at h
          · cases h
          · have hlenient := Document.read_lenient hread
            rw [Document.read_parse] at hlenient
            rw [Except.ok.inj hlenient]
            exact .inl (Except.ok.inj h).symm
        · exact .inr (.inr h)
      · exact .inr (.inr h)

/-- Whatever text is read as a document, it is the one that the document reader makes of
    the text, with a paragraph for each run of lines between blank ones. Only where no
    token is left, the document has no paragraphs at all. -/
theorem parseText_document {settings : ReadingSettings} {text : String} {d : Document}
    (h : parseText settings text = .ok (.document d)) :
    (tokensOf settings text ≠ [] →
      d = Document.parse settings text ∧
      d.paragraphs.length = (((Layout.lines text.toList).splitOnP Layout.isBlankLine).filter
        fun run => !run.isEmpty).length) ∧
    (tokensOf settings text = [] → d = ⟨[], Document.spanOf text⟩) := by
  have hnode {ts : List Token} (h : parseNode settings ts = .ok (.document d)) :
      d = Document.parse settings text := absurd h parseNode_ne_document
  simp only [parseText] at h
  constructor
  · intro htokens
    have hd : d = Document.parse settings text := by
      split at h
      · exact (Node.document.inj (Except.ok.inj h)).symm
      · split at h
        · next hnone => exact absurd (List.head?_eq_none_iff.1 hnone) htokens
        · split at h
          · split at h
            · -- a strict reading that gives something gives what a lenient one gives
              rcases hread : Document.read settings true text with e | d' <;> rw [hread] at h
              · cases h
              · obtain rfl := Node.document.inj (Except.ok.inj h)
                have hlenient := Document.read_lenient hread
                rw [Document.read_parse] at hlenient
                exact (Except.ok.inj hlenient).symm
            · exact hnode h
          · exact hnode h
    exact ⟨hd, by rw [hd, Document.length_paragraphs]⟩
  · intro htokens
    simp only [tokensOf] at htokens
    simp only [htokens, List.any_nil, Bool.false_eq_true, if_false, List.head?_nil] at h
    exact (Node.document.inj (Except.ok.inj h)).symm

set_option maxRecDepth 4096 in
/-- A call, which is read as a document although no sentence ends in it. -/
theorem parseText_document_call :
    let d : Document := ⟨[⟨[.invocation "run" [] none ⟨0, 3⟩], none, ⟨0, 3⟩⟩], ⟨0, 3⟩⟩
    parseText {} "run" = .ok (.document d) ∧ tokensOf {} "run" ≠ [] ∧
      d = Document.parse {} "run" ∧ d.paragraphs.length = 1 := by
  intro d
  have h : parseText {} "run" = .ok (.document d) := by cbv
  have htokens : (tokensOf {} "run").isEmpty = false := by cbv
  have hne : tokensOf {} "run" ≠ [] := by
    intro hnil
    rw [hnil] at htokens
    cases htokens
  exact ⟨h, hne, ((parseText_document h).1 hne).1, rfl⟩

/-- A comment alone is a paragraph for the document reader and none otherwise. -/
theorem parseText_comment_alone :
    parseText {} "\\ nothing here" = .ok (.document ⟨[], ⟨0, 14⟩⟩) ∧
      Document.parse {} "\\ nothing here" = ⟨[⟨[], none, ⟨0, 14⟩⟩], ⟨0, 14⟩⟩ := by
  constructor <;> cbv

end Prose
