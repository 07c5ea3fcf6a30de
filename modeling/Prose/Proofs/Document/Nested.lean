import Mathlib
import Prose.Proofs.Document.Containment
import Prose.Proofs.Document.EntryPoints
import Prose.Proofs.Document.Locality
import Prose.Proofs.Grammar.Nested
import Prose.Proofs.Loose.Nested

/- Documents are well nested. Tokens are cut out of the text with its comments blanked out,
   and they start and stop where the text itself can be cut. What the fragments of a
   paragraph contribute stands one behind the other like the fragments, within the
   paragraph, and so do the paragraphs within the text. -/
namespace Prose

open Grammar Text

variable {whole : List Char} {r : Reading} {ts : List Token} {span : Span}

/-! Sentences. -/

namespace Reading

/-- Where a reading has a span of the text, it has the text of the span. -/
theorem covers_slice (hwhole : Layout.Blanked whole r.text) (h : span.Sits (Cut whole)) :
    span.Covers (Cut whole) (slice r.text span.start span.stop) := by
  obtain ⟨before, part, after, htext, hstart, hstop⟩ :=
    (hwhole.cut h.2.1).exists_part (hwhole.cut h.2.2) h.1
  have hslice : slice r.text span.start span.stop = part := by
    rw [htext, ← hstart, ← hstop, slice_part]
  rw [hslice]
  refine ⟨h, by rw [← hstop, hstart], fun i hi => hwhole.cut_of_edge ?_⟩
  rw [htext, ← hstart]
  exact hi.within before after

/-- What the grammar rejects is kept, or is a loose declaration. -/
theorem fits_rejected (hwhole : Layout.Blanked whole r.text) (h : r.Readable ts)
    (hts : Token.Laid (Cut whole) ts) : (Node.stmt (r.rejected ts)).Fits (Cut whole) ts := by
  rw [rejected]
  split
  · next s hs =>
    cases hfallback : r.settings.fallback with
    | false =>
      rw [hfallback] at hs
      cases hs
    | true =>
      rw [hfallback, if_pos rfl] at hs
      have hcovers := covers_slice hwhole (hts.sits_ofTokens h.ne_nil)
      obtain ⟨hnested, hspan⟩ := LooseDeclaration.nested_parse hcovers hs
      refine ⟨hnested, ?_⟩
      rw [show (Node.stmt s).span = .ofTokens ts from hspan]
      exact Span.heldBy_ofTokens h.ne_nil
  · exact fits_ofUnread hts h.ne_nil h.significant

theorem fits_sentence (hwhole : Layout.Blanked whole r.text) (h : r.Readable ts)
    (hts : Token.Laid (Cut whole) ts) {s : Sentence} (hs : r.sentence ts = .ok s) :
    s.Fits (Cut whole) ts := by
  rcases hparse : parseSentence r.settings ts with e | s' <;> simp only [sentence, hparse] at hs
  · split at hs
    · cases hs
    · obtain rfl := Except.ok.inj hs
      exact fits_rejected hwhole h hts
  · obtain rfl := Except.ok.inj hs
    have hsub := withoutComments_sublist true ts
    have hfits := (derives_parseSentence h.significant hparse).fits (hts.sublist hsub)
    cases s' with
    | stmt s => exact hfits.mono hsub.subset
    | header label body => exact hfits.mono hsub.subset

theorem fits_body (hwhole : Layout.Blanked whole r.text) (h : r.Readable ts)
    (hts : Token.Laid (Cut whole) ts) {s : Stmt} (hs : r.body ts = .ok s) :
    (Node.stmt s).Fits (Cut whole) ts := by
  fun_induction r.body ts generalizing s with
  | case1 ts e he => cases hs
  | case2 ts s' hsentence =>
    obtain rfl := Except.ok.inj hs
    exact fits_sentence hwhole h hts hsentence
  | case3 ts label hsentence =>
    obtain rfl := Except.ok.inj hs
    have hlabel : (Node.label label).Fits (Cut whole) ts := fits_sentence hwhole h hts hsentence
    exact fits_underHeader hlabel (fits_noBody hlabel)
  | case4 ts label rest hsentence hlt ih =>
    have hlabel : (Node.label label).Fits (Cut whole) ts := fits_sentence hwhole h hts hsentence
    obtain ⟨-, hsub⟩ := body_of_sentence h.significant hsentence
    rcases hbody : r.body rest with e | s' <;> rw [hbody] at hs
    · cases hs
    · obtain rfl := Except.ok.inj hs
      have hs' := ih (h.body hsentence) (hts.sublist hsub) hbody
      exact fits_underHeader hlabel (hs'.mono hsub.subset)
  | case5 ts label rest hsentence hlt =>
    obtain rfl := Except.ok.inj hs
    exact fits_ofUnread hts h.ne_nil h.significant

end Reading

/-! Contributions. -/

namespace Contribution

variable {P : Nat → Prop} {c : Contribution} {cs : List Contribution} {us : List Token}
  {fragments : List (List Token)}

/-- What a fragment contributes is well nested, and its tokens hold it. -/
def Fits (P : Nat → Prop) (ts : List Token) : Contribution → Prop
  | stmt s => (Node.stmt s).Fits P ts
  | header label body => (Node.label label).Fits P ts ∧ ∀ s ∈ body, (Node.stmt s).Fits P ts

theorem Fits.statement (h : c.Fits P ts) : (Node.stmt c.statement).Fits P ts := by
  cases c with
  | stmt s => exact h
  | header label body =>
    refine fits_underHeader h.1 ?_
    cases body with
    | none => exact fits_noBody h.1
    | some s => exact h.2 s rfl

/-- The labels of the heading are those of contributions. -/
theorem exists_of_mem_heading {l : Label} (h : l ∈ heading cs) : ∃ body, header l body ∈ cs := by
  obtain ⟨c, hc, hlabel⟩ := List.mem_filterMap.1 h
  have hmem : c ∈ cs := by
    rcases List.mem_append.1 hc with hc | hc
    · exact (List.takeWhile_sublist _).subset hc
    · have hhead := (Option.filter_eq_some_iff.1 (Option.mem_toList.1 hc)).1
      exact (List.dropWhile_sublist _).subset (List.mem_of_mem_head? hhead)
  cases c with
  | stmt s => cases hlabel
  | header label body =>
    obtain rfl := Option.some.inj hlabel
    exact ⟨body, hmem⟩

/-- The statements of a paragraph come from some last fragments, one from each. -/
theorem fits_statementsOf (h : List.Forall₂ (fun ts c => c.Fits P ts) fragments cs) :
    ∃ last, last.Sublist fragments ∧
      List.Forall₂ (fun ts s => (Node.stmt s).Fits P ts) last (statementsOf cs) := by
  have hall {fragments : List (List Token)} {cs : List Contribution}
      (h : List.Forall₂ (fun ts c => c.Fits P ts) fragments cs) :
      List.Forall₂ (fun ts s => (Node.stmt s).Fits P ts) fragments (cs.map statement) :=
    List.forall₂_map_right_iff.2 (h.imp fun _ _ hc => hc.statement)
  induction h with
  | nil => exact ⟨[], .slnil, .nil⟩
  | @cons ts c fragments cs hc hcs ih =>
    cases c with
    | stmt s => exact ⟨ts :: fragments, .refl _, .cons hc (hall hcs)⟩
    | header label body =>
      cases body with
      | none =>
        obtain ⟨last, hlast, hstatements⟩ := ih
        exact ⟨last, hlast.cons ts, hstatements⟩
      | some s => exact ⟨ts :: fragments, .refl _, .cons (hc.2 s rfl) (hall hcs)⟩

end Contribution

/-! Labels of several headers. -/

namespace Label

variable {P : Nat → Prop} {l m : Label} {labels : List Label}

theorem mem_children_merge {c : Node} (h : c ∈ (Node.label (l.merge m)).children) :
    c ∈ (Node.label l).children ∨ c ∈ (Node.label m).children := by
  simp only [Node.children, merge, List.mem_append] at h ⊢
  rcases h with h | h
  · split at h
    · exact .inr (.inl h)
    · exact .inl (.inl h)
  · cases hresult : l.result <;> simp only [hresult] at h ⊢
    · exact .inr (.inr h)
    · exact .inl (.inr h)

theorem fits_merge (hl : (Node.label l).Fits P ts) (hm : (Node.label m).Fits P ts) :
    (Node.label (l.merge m)).Fits P ts := by
  refine Node.fits_cover hl.span hm.span rfl rfl fun c hc => ?_
  rcases mem_children_merge hc with hc | hc
  · exact (hl.nested.of_mem_children hc).imp_right .inl
  · exact (hm.nested.of_mem_children hc).imp_right .inr

/-- A label of several headers holds what they hold. -/
theorem fits_mergeAll
    (h : ∀ l ∈ labels, (Node.label l).Fits P ts) :
    ∀ l ∈ Label.mergeAll labels, (Node.label l).Fits P ts := by
  induction labels using List.reverseRecOn with
  | nil => exact nofun
  | append_singleton labels l ih =>
    rw [List.forall_mem_append, List.forall_mem_singleton] at h
    intro m hm
    rw [mergeAll_concat] at hm
    obtain rfl := Option.some.inj hm
    rcases hfirst : mergeAll labels with _ | first
    · exact h.2
    · exact fits_merge (ih h.1 first hfirst) h.2

end Label

namespace Reading

theorem Contributes.fits (hwhole : Layout.Blanked whole r.text) (h : r.Readable ts)
    (hts : Token.Laid (Cut whole) ts) {c : Contribution} (hc : r.Contributes ts c) :
    c.Fits (Cut whole) ts := by
  cases hc with
  | stmt hs => exact fits_sentence hwhole h hts hs
  | header hs => exact ⟨fits_sentence hwhole h hts hs, nofun⟩
  | @body label rest s hs hbody =>
    obtain ⟨-, hsub⟩ := body_of_sentence h.significant hs
    have hfits := fits_body hwhole (h.body hs) (hts.sublist hsub) hbody
    refine ⟨fits_sentence hwhole h hts hs, fun s' hs' => ?_⟩
    obtain rfl := Option.some.inj hs'
    exact hfits.mono hsub.subset

/-! Paragraphs. -/

/-- Statements of fragments stand one behind the other if the tokens of the fragments do. -/
theorem pairwise_statements {P : Nat → Prop} {fragments : List (List Token)} {ss : List Stmt}
    (hlaid : Token.Laid P fragments.flatten)
    (h : List.Forall₂ (fun ts s => (Node.stmt s).Fits P ts) fragments ss) :
    ss.Pairwise fun s t => s.span.stop ≤ t.span.start := by
  induction h with
  | nil => exact .nil
  | @cons ts s fragments ss hs hss ih =>
    rw [List.flatten_cons] at hlaid
    refine List.pairwise_cons.2 ⟨fun s' hs' => ?_, ih (hlaid.sublist (List.sublist_append_right ..))⟩
    obtain ⟨us, hus, hfits⟩ := exists_mem_of_forall₂ hss hs'
    obtain ⟨-, -, last, hlast, -, hstop⟩ := hs.held
    obtain ⟨first, hfirst, -, -, hstart, -⟩ := hfits.held
    have hbetween : last.stop ≤ first.start :=
      (List.pairwise_append.1 hlaid.inOrder).2.2 last hlast first (List.mem_flatten_of_mem hus hfirst)
    exact Nat.le_trans hstop (Nat.le_trans hbetween hstart)

/-- What fragments of a paragraph contribute is well nested, and their tokens hold it. -/
theorem Contributions.fits (hwhole : Layout.Blanked whole r.text) (hspan : span.Sits (Cut whole))
    {cs : List Contribution} (h : r.Contributions (Layout.sentences (r.tokens span)) cs) :
    List.Forall₂ (fun ts c => Contribution.Fits (Cut whole) ts c)
      (Layout.sentences (r.tokens span)) cs := by
  have hlaid : Token.Laid (Cut whole) (r.tokens span) := (covers_slice hwhole hspan).laid
  have hreadable : ∀ ts ∈ Layout.sentences (r.tokens span),
      r.Readable ts ∧ Token.Laid (Cut whole) ts := fun ts hts =>
    ⟨readable_of_mem_sentences (.of_sits hwhole hspan) hts,
      hlaid.sublist (Layout.sublist_of_mem_sentences hts)⟩
  have hread := (List.forall₂_and_left _ _).2 ⟨hreadable, h⟩
  exact hread.imp fun ts c hc => hc.2.fits hwhole hc.1.1 hc.1.2

/-- A paragraph is well nested. -/
theorem nested_paragraph (hwhole : Layout.Blanked whole r.text) (hspan : span.Sits (Cut whole))
    {p : Paragraph} (hp : r.paragraph span = .ok p) : (Node.paragraph p).Nested (Cut whole) := by
  obtain ⟨cs, hcs, rfl⟩ := paragraph_eq_ok_iff.1 hp
  have hcovers := covers_slice hwhole hspan
  have hfits := hcs.fits hwhole hspan
  obtain ⟨last, hlast, hstatements⟩ := Contribution.fits_statementsOf hfits
  have hsub {ts : List Token} (hts : ts ∈ Layout.sentences (r.tokens span)) : ts ⊆ r.tokens span :=
    (Layout.sublist_of_mem_sentences hts).subset
  have hlabels : ∀ l ∈ Contribution.heading cs, (Node.label l).Fits (Cut whole) (r.tokens span) := by
    intro l hl
    obtain ⟨body, hmem⟩ := Contribution.exists_of_mem_heading hl
    obtain ⟨ts, hts, hc⟩ := exists_mem_of_forall₂ hfits hmem
    exact hc.1.mono (hsub hts)
  rw [Draft.finish_foldl_add]
  have hchildren : ∀ c ∈ (Node.paragraph ⟨Contribution.statementsOf cs,
      Label.mergeAll (Contribution.heading cs), span⟩).children, c.Fits (Cut whole) (r.tokens span) := by
    refine List.forall_mem_append.2 ⟨List.forall_mem_map.2 fun l hl => ?_,
      List.forall_mem_map.2 fun s hs => ?_⟩
    · exact Label.fits_mergeAll hlabels l (Option.mem_toList.1 hl)
    · obtain ⟨ts, hts, hs⟩ := exists_mem_of_forall₂ hstatements hs
      exact hs.mono (hsub (hlast.subset hts))
  refine .intro hspan (fun c hc => ?_) ?_ fun c hc => (hchildren c hc).nested
  · exact hcovers.within (hchildren c hc).held
  · have hflat : last.flatten.Sublist (r.tokens span) :=
      hlast.flatten.trans (Layout.flatten_sentences_sublist _)
    exact pairwise_statements (hcovers.laid.sublist hflat) hstatements

end Reading

/-! Documents. -/

namespace Document

variable {settings : ReadingSettings} {strict : Bool} {text : String} {d : Document}

theorem sits_spanOf (text : String) : (spanOf text).Sits (Cut text.toList) :=
  ⟨Nat.zero_le _, cut_zero _, cut_byteLength _⟩

/-- A text stands at its own span, also with comments blanked out. -/
theorem covers_spanOf {cs : List Char} (h : Layout.Blanked text.toList cs) :
    (spanOf text).Covers (Cut text.toList) cs where
  sits := sits_spanOf text
  stop := by rw [h.byteLength_eq, spanOf, Nat.zero_add]
  edge i hi := by
    rw [spanOf, Nat.zero_add]
    exact h.cut_of_edge hi

/-- A document of well-nested paragraphs is well nested: nothing reaches out of the text. -/
theorem nested_of_paragraphs (hspan : d.span = spanOf text)
    (h : ∀ p ∈ d.paragraphs, (Node.paragraph p).Nested (Cut text.toList)) :
    (Node.document d).Nested (Cut text.toList) := by
  have hsits : (Node.document d).span.Sits (Cut text.toList) := by
    rw [show (Node.document d).span = spanOf text from hspan]
    exact sits_spanOf text
  refine .intro hsits (List.forall_mem_map.2 fun p hp => ?_) .nil (List.forall_mem_map.2 h)
  rw [show (Node.document d).span = spanOf text from hspan]
  exact ⟨Nat.zero_le _, (h p hp).sits.2.2.le⟩

theorem nested_read (h : read settings strict text = .ok d) :
    (Node.document d).Nested (Cut text.toList) := by
  obtain ⟨hps, hspan⟩ := read_eq_ok_iff.1 h
  refine nested_of_paragraphs hspan fun p hp => ?_
  obtain ⟨span, hmem, hp⟩ := exists_mem_of_forall₂ hps hp
  exact Reading.nested_paragraph (Layout.blanked_withoutComments settings.commentMarker text.toList)
    (Layout.sits_of_mem_paragraphSpans hmem) hp

theorem nested_unread (text : String) : (Node.document (unread text)).Nested (Cut text.toList) := by
  have hlaid : Token.Laid (Cut text.toList) (Token.significant (Token.scan 0 text)) :=
    (covers_spanOf (.refl _)).laid
  have hsits : (Stmt.ofUnread (Token.scan 0 text)).span.Sits (Cut text.toList) := by
    by_cases hnil : Token.significant (Token.scan 0 text) = []
    · have hspan : (Stmt.ofUnread (Token.scan 0 text)).span = .zero := congrArg Span.ofTokens hnil
      rw [hspan]
      exact ⟨Nat.le_refl _, cut_zero _, cut_zero _⟩
    · exact hlaid.sits_ofTokens hnil
  have hstmt : (Node.stmt (.ofUnread (Token.scan 0 text))).Nested (Cut text.toList) :=
    .intro hsits nofun .nil nofun
  refine nested_of_paragraphs rfl (List.forall_mem_singleton.2 ?_)
  exact .intro hsits (List.forall_mem_singleton.2 (.refl _)) (List.pairwise_singleton ..)
    (List.forall_mem_singleton.2 hstmt)

theorem nested_parse (settings : ReadingSettings) (text : String) (strict : Bool) :
    (Node.document (parse settings text strict)).Nested (Cut text.toList) := by
  rw [parse]
  split
  · next d hd => exact nested_read hd
  · exact nested_unread text

end Document

section Texts

variable {settings : ReadingSettings} {text : String} {root n : Node}

theorem nested_parseNode (h : parseNode settings (tokensOf settings text) = .ok n) :
    n.Nested (Cut text.toList) := by
  have hblanked := Layout.blanked_withoutComments settings.commentMarker text.toList
  have hlaid : Token.Laid (Cut text.toList) (tokensOf settings text) :=
    (Document.covers_spanOf hblanked).laid
  have hparsed : Token.Laid (Cut text.toList)
      (withoutComments false ((tokensOf settings text).filter Token.isSignificant)) :=
    hlaid.sublist ((withoutComments_sublist false _).trans List.filter_sublist)
  rcases derives_parseNode h with hbare | ⟨s, rfl, hs⟩
  · exact (hbare.fits hparsed).nested
  · exact (hs.fits hparsed).nested

theorem nested_parseText (h : parseText settings text = .ok n) : n.Nested (Cut text.toList) := by
  rcases parseText_eq_ok h with rfl | rfl | hnode
  · exact Document.nested_parse ..
  · exact Document.nested_of_paragraphs rfl (List.forall_mem_nil _)
  · exact nested_parseNode hnode

/-- The trees that a text is read as: a document, by either reading, and whatever it is read
    as without being asked for a document. -/
inductive ReadAs (settings : ReadingSettings) (text : String) : Node → Prop where
  | document (strict : Bool) : ReadAs settings text (.document (Document.parse settings text strict))
  | text {n : Node} (h : parseText settings text = .ok n) : ReadAs settings text n

/-- Spans are well nested. Every node of every tree that a text is read as has a span in the
    text that begins and ends between two characters, or at an end of the text. The nodes
    below it stand in its span. The statements of a paragraph stand one behind the other in
    its span. -/
theorem spans_nested (hroot : ReadAs settings text root) (hn : n ∈ root.preorder) :
    n.span.start ≤ n.span.stop ∧ n.span.stop ≤ text.utf8ByteSize ∧
      Cut text.toList n.span.start ∧ Cut text.toList n.span.stop ∧
      (∀ c ∈ n.children, c.span.Within n.span) ∧
      (n.statements.Pairwise fun s t => s.span.stop ≤ t.span.start) ∧
      ∀ s ∈ n.statements, s.span.Within n.span := by
  have hnested : root.Nested (Cut text.toList) := by
    cases hroot with
    | document strict => exact Document.nested_parse ..
    | text h => exact nested_parseText h
  cases hnested.of_mem_preorder hn with
  | intro sits within inOrder below =>
    refine ⟨sits.1, ?_, sits.2.1, sits.2.2, within, inOrder, fun s hs => ?_⟩
    · rw [← byteLength_toList]
      exact sits.2.2.le
    · exact within _ (Node.mem_children_of_mem_statements hs)

set_option maxRecDepth 4096 in
/-- The two calls of one paragraph. -/
theorem spans_nested_calls :
    let text := "run; stop."
    let first : Stmt := .invocation "run" [] none ⟨0, 3⟩
    let second : Stmt := .invocation "stop" [] none ⟨5, 9⟩
    let root : Node := .document ⟨[⟨[first, second], none, ⟨0, 10⟩⟩], ⟨0, 10⟩⟩
    let paragraph : Node := .paragraph ⟨[first, second], none, ⟨0, 10⟩⟩
    ReadAs {} text root ∧ paragraph ∈ root.preorder ∧
      ([first, second].Pairwise fun s t => s.span.stop ≤ t.span.start) ∧
      ∀ s ∈ [first, second], s.span.Within ⟨0, 10⟩ := by
  intro text first second root paragraph
  have hroot : ReadAs {} text root := .text (by cbv)
  have hpreorder : root.preorder = [root, paragraph, .stmt first, .stmt second] := by cbv
  have hmem : paragraph ∈ root.preorder := hpreorder ▸ .tail _ (.head _)
  obtain ⟨-, -, -, -, -, hinOrder, hwithin⟩ := spans_nested hroot hmem
  exact ⟨hroot, hmem, hinOrder, hwithin⟩

end Texts

end Prose
