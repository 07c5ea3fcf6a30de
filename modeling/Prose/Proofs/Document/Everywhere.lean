import Prose.Proofs.Document.Containment
import Prose.Proofs.Document.Shift

/- What holds everywhere in a document. Statements come out of the grammar, out of loose
   declarations and out of what nothing could read; headers are put above statements and
   merged into labels. A property that all of this respects holds of every statement and
   every label of the document, if the tokens of its paragraphs are as it asks for. -/
namespace Prose

open Grammar

/-- The statement that was read of a sentence has the one property, its header the other. -/
def Grammar.Sentence.All (S : Stmt → Prop) (L : Label → Prop) : Sentence → Prop
  | .stmt s => S s
  | .header l _ => L l

/-- A property of statements and one of labels that hold of whatever is read of tokens with
    a third one, and that are kept where a document is put together. The third one is kept
    where tokens are left out. -/
structure Governs (r : Reading) (T : List Token → Prop) (S : Stmt → Prop) (L : Label → Prop) :
    Prop where
  part : ∀ {ts us}, T ts → us.Sublist ts → T us
  significant : ∀ {ts}, T ts → ∀ t ∈ ts, t.isSignificant
  sentence : ∀ {s ts}, T ts → SentenceFrom r.settings.maxDepth s ts → s.All S L
  loose : ∀ {span s}, r.settings.fallback = true →
    LooseDeclaration.parse (Text.slice r.text span.start span.stop) span = .ok s → S s
  unread : ∀ {ts}, ts ≠ [] → T ts → S (.ofUnread ts)
  noBody : ∀ {l}, L l → S (.noBody l)
  underHeader : ∀ {l s}, L l → S s → S (.underHeader l s)
  merge : ∀ {l m}, L l → L m → L (l.merge m)

/-- Properties of this kind, of which the one also holds of any tokens that stay unread. -/
structure Pervades (r : Reading) (T : List Token → Prop) (S : Stmt → Prop) (L : Label → Prop) :
    Prop extends Governs r T S L where
  anyUnread : ∀ ts, S (.ofUnread ts)
  unread := fun {ts} _ _ => anyUnread ts

/-- All statements of a paragraph have the one property, and its label has the other. -/
structure Paragraph.All (S : Stmt → Prop) (L : Label → Prop) (p : Paragraph) : Prop where
  statements : ∀ s ∈ p.statements, S s
  label : ∀ l ∈ p.label, L l

variable {r : Reading} {T : List Token → Prop} {S : Stmt → Prop} {L : Label → Prop}

/-! Paragraphs in the making. -/

namespace Draft

/-- All statements of a draft have the one property, and its label has the other. -/
structure All (S : Stmt → Prop) (L : Label → Prop) (d : Draft) : Prop where
  statements : ∀ s ∈ d.statements, S s
  label : ∀ l ∈ d.label, L l

variable {d : Draft} {s : Stmt} {l : Label} {body : Option Stmt}

theorem All.addStatement (h : d.All S L) (hs : S s) : (d.addStatement s).All S L where
  statements := List.forall_mem_append.2 ⟨h.statements, List.forall_mem_singleton.2 hs⟩
  label := h.label

/-- The label with one more header. -/
theorem All.merge (h : d.All S L) (hgoverns : Governs r T S L) (hl : L l) (isOpen : Bool) :
    All S L ⟨some (match d.label with | some first => first.merge l | none => l), d.statements,
      isOpen⟩ where
  statements := h.statements
  label := by
    refine fun m hm => Option.some.inj hm ▸ ?_
    split
    · next first hfirst => exact hgoverns.merge (h.label first hfirst) hl
    · exact hl

theorem All.addHeader (h : d.All S L) (hgoverns : Governs r T S L) (hl : L l)
    (hbody : ∀ s ∈ body, S s) : (d.addHeader l body).All S L := by
  have hmerged := h.merge hgoverns hl
  rw [Draft.addHeader]
  split
  · cases body with
    | none => exact hmerged true
    | some s => exact (hmerged false).addStatement (hbody s rfl)
  · refine h.addStatement (hgoverns.underHeader hl ?_)
    cases body with
    | none => exact hgoverns.noBody hl
    | some s => exact hbody s rfl

end Draft

/-! Readings. -/

namespace Reading

variable {ts : List Token}

theorem all_rejected (h : Governs r T S L) (hne : ts ≠ []) (hts : T ts) : S (r.rejected ts) := by
  rw [rejected]
  split
  · next s hs =>
    split at hs
    · next hfallback =>
      rcases hparse : LooseDeclaration.parse _ _ with e | s' <;> rw [hparse] at hs
      · cases hs
      · obtain rfl := Option.some.inj hs
        exact h.loose hfallback hparse
    · cases hs
  · exact h.unread hne hts

theorem all_sentence (h : Governs r T S L) (hne : ts ≠ []) (hts : T ts)
    {s : Sentence} (hs : r.sentence ts = .ok s) : s.All S L := by
  rcases hparse : parseSentence r.settings ts with e | s' <;> simp only [sentence, hparse] at hs
  · split at hs
    · cases hs
    · obtain rfl := Except.ok.inj hs
      exact all_rejected h hne hts
  · obtain rfl := Except.ok.inj hs
    have hkept := h.part hts (withoutComments_sublist true ts)
    exact h.sentence hkept (derives_parseSentence (h.significant hts) hparse)

theorem all_body (h : Governs r T S L) (hne : ts ≠ []) (hts : T ts) {s : Stmt}
    (hs : r.body ts = .ok s) : S s := by
  fun_induction r.body ts generalizing s with
  | case1 ts e he => cases hs
  | case2 ts s' hsentence =>
    obtain rfl := Except.ok.inj hs
    exact all_sentence h hne hts hsentence
  | case3 ts label hsentence =>
    obtain rfl := Except.ok.inj hs
    have hlabel : L label := all_sentence h hne hts hsentence
    exact h.underHeader hlabel (h.noBody hlabel)
  | case4 ts label rest hsentence hlt ih =>
    have hlabel : L label := all_sentence h hne hts hsentence
    obtain ⟨hbodyNe, hsub⟩ := body_of_sentence (h.significant hts) hsentence
    rcases hbody : r.body rest with e | s' <;> rw [hbody] at hs
    · cases hs
    · obtain rfl := Except.ok.inj hs
      exact h.underHeader hlabel (ih hbodyNe (h.part hts hsub) hbody)
  | case5 ts label rest hsentence hlt =>
    obtain rfl := Except.ok.inj hs
    exact h.unread hne hts

theorem Contributes.all (h : Governs r T S L) (hne : ts ≠ []) (hts : T ts)
    {c : Contribution} (hc : r.Contributes ts c) {d : Draft} (hd : d.All S L) :
    (d.add c).All S L := by
  cases hc with
  | stmt hs => exact hd.addStatement (all_sentence h hne hts hs)
  | header hs => exact hd.addHeader h (all_sentence h hne hts hs) nofun
  | @body label rest s hs hbody =>
    obtain ⟨hbodyNe, hsub⟩ := body_of_sentence (h.significant hts) hs
    refine hd.addHeader h (all_sentence h hne hts hs) fun s' hs' => ?_
    obtain rfl := Option.some.inj hs'
    exact all_body h hbodyNe (h.part hts hsub) hbody

theorem Contributions.all (h : Governs r T S L) {fragments : List (List Token)}
    (hfragments : ∀ ts ∈ fragments, ts ≠ [] ∧ T ts) {cs : List Contribution}
    (hcs : r.Contributions fragments cs) {d : Draft} (hd : d.All S L) :
    (cs.foldl Draft.add d).All S L := by
  induction hcs generalizing d with
  | nil => exact hd
  | cons hc _ ih =>
    rw [List.forall_mem_cons] at hfragments
    exact ih hfragments.2 (hc.all h hfragments.1.1 hfragments.1.2 hd)

theorem all_paragraph (h : Governs r T S L) {span : Span} (htokens : T (r.tokens span))
    {p : Paragraph} (hp : r.paragraph span = .ok p) : p.All S L := by
  obtain ⟨cs, hcs, rfl⟩ := paragraph_eq_ok_iff.1 hp
  have hempty : Draft.All S L {} := ⟨nofun, nofun⟩
  have hfragments : ∀ ts ∈ Layout.sentences (r.tokens span), ts ≠ [] ∧ T ts := fun ts hts =>
    ⟨Layout.ne_nil_of_mem_sentences hts, h.part htokens (Layout.sublist_of_mem_sentences hts)⟩
  have hdraft := hcs.all h hfragments hempty
  exact ⟨hdraft.statements, hdraft.label⟩

end Reading

/-! Documents. -/

namespace Document

variable {settings : ReadingSettings} {text : String} {strict : Bool} {d : Document}

theorem all_read (h : Governs (.ofText settings strict text) T S L)
    (htokens : ∀ span ∈ Layout.paragraphSpans text.toList,
      T ((Reading.ofText settings strict text).tokens span))
    (hd : read settings strict text = .ok d) : ∀ p ∈ d.paragraphs, p.All S L := by
  intro p hp
  obtain ⟨span, hspan, hread⟩ := exists_mem_of_forall₂ (read_eq_ok_iff.1 hd).1 hp
  exact Reading.all_paragraph h (htokens span hspan) hread

/-- What governs a reading governs the document. Where a strict reading failed, that is the
    statement of a whole text that stays unread. -/
theorem all_parse_of_unread (h : Governs (.ofText settings strict text) T S L)
    (htokens : ∀ span ∈ Layout.paragraphSpans text.toList,
      T ((Reading.ofText settings strict text).tokens span))
    (hwhole : S (.ofUnread (Token.scan 0 text))) :
    ∀ p ∈ (parse settings text strict).paragraphs, p.All S L := by
  rw [parse]
  split
  · next d hd => exact all_read h htokens hd
  · exact List.forall_mem_singleton.2
      ⟨List.forall_mem_singleton.2 hwhole, fun l hl => absurd hl (Option.not_mem_none l)⟩

/-- What pervades a reading holds in the document, also where a strict reading failed. -/
theorem all_parse (h : Pervades (.ofText settings strict text) T S L)
    (htokens : ∀ span ∈ Layout.paragraphSpans text.toList,
      T ((Reading.ofText settings strict text).tokens span)) :
    ∀ p ∈ (parse settings text strict).paragraphs, p.All S L :=
  all_parse_of_unread h.toGoverns htokens (h.anyUnread _)

end Document

end Prose
