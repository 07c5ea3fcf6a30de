import Prose.Proofs.Document.Blanking
import Prose.Proofs.Document.Contribution
import Prose.Proofs.Document.Chunks
import Prose.Proofs.Document.Fragments
import Prose.Proofs.Grammar.ShiftSentence
import Prose.Proofs.Loose.Shift
import Prose.Proofs.Token.Edges

/- Paragraphs at another place. A reading looks at nothing but the bytes of the paragraph:
   where they stand in a longer text, the same paragraph is read, further on by the bytes
   that stand before. -/
namespace Prose

open Grammar Text

variable {n : Nat}

/-! Tokens of a text that stands further on. -/

theorem Token.scanFrom_shift (offset : Nat) (cs : List Char) :
    scanFrom (offset + n) cs = (scanFrom offset cs).map (shift n) := by
  fun_induction scanFrom offset cs with
  | case1 offset => rw [scanFrom]; rfl
  | case2 offset c rest found chars stop ih =>
    have hstop : offset + n + byteLength chars = stop + n := Nat.add_right_comm ..
    rw [scanFrom, List.map_cons, ← ih, shift, ← hstop]

theorem Layout.sentences_shift (ts : List Token) :
    sentences (ts.map (Token.shift n)) = (sentences ts).map (List.map (Token.shift n)) :=
  sentences_map (Token.shift n) (fun _ => rfl) ts

namespace Reading

variable {r : Reading} {before after : List Char} {ts : List Token}

/-- The reading of a text that the text of this one is a part of. -/
def within (r : Reading) (before after : List Char) : Reading :=
  { r with text := before ++ (r.text ++ after) }

/-- Tokens that a paragraph gives to be read: some, all of them significant, each cut out
    of the text. -/
def Readable (r : Reading) (ts : List Token) : Prop :=
  ts ≠ [] ∧ ∀ t ∈ ts, t.isSignificant ∧ Cut r.text t.start ∧ Cut r.text t.stop

theorem Readable.ne_nil (h : r.Readable ts) : ts ≠ [] := h.1

theorem Readable.significant (h : r.Readable ts) : ∀ t ∈ ts, t.isSignificant :=
  fun t ht => (h.2 t ht).1

theorem body_of_sentence {label : Label} {body : List Token} (hts : ∀ t ∈ ts, t.isSignificant)
    (hs : r.sentence ts = .ok (.header label (some body))) : body ≠ [] ∧ body.Sublist ts := by
  rcases hparse : parseSentence r.settings ts with e | s <;> simp only [sentence, hparse] at hs
  · split at hs <;> cases hs
  · obtain rfl := Except.ok.inj hs
    exact body_sublist (derives_parseSentence hts hparse)

theorem Readable.body {label : Label} {body : List Token} (h : r.Readable ts)
    (hs : r.sentence ts = .ok (.header label (some body))) : r.Readable body := by
  obtain ⟨hne, hsub⟩ := body_of_sentence h.significant hs
  exact ⟨hne, fun t ht => h.2 t (hsub.subset ht)⟩

/-- What the grammar rejects is the same declaration further on, or none. -/
theorem rejected_within (h : r.Readable ts) :
    (r.within before after).rejected (ts.map (Token.shift (byteLength before))) =
      (r.rejected ts).shift (byteLength before) := by
  have hslice : slice (before ++ (r.text ++ after)) ((Span.ofTokens ts).start + byteLength before)
      ((Span.ofTokens ts).stop + byteLength before) =
        slice r.text (Span.ofTokens ts).start (Span.ofTokens ts).stop := by
    simp only [Span.ofTokens, List.head?_eq_some_head h.ne_nil, List.getLast?_eq_some_getLast h.ne_nil]
    exact slice_within before after (h.2 _ (List.head_mem h.ne_nil)).2.1
      (h.2 _ (List.getLast_mem h.ne_nil)).2.2.le
  have hparse := LooseDeclaration.parse_shift (n := byteLength before)
    (slice r.text (Span.ofTokens ts).start (Span.ofTokens ts).stop) (Span.ofTokens ts)
  simp only [Span.shift] at hparse
  simp only [rejected, within, Span.ofTokens_shift h.ne_nil]
  cases r.settings.fallback with
  | false => exact (Stmt.shift_ofUnread h.ne_nil h.significant).symm
  | true =>
    simp only [if_true, Span.shift, hslice, hparse]
    cases (LooseDeclaration.parse (slice r.text (Span.ofTokens ts).start (Span.ofTokens ts).stop)
      (Span.ofTokens ts)).toOption with
    | none => exact (Stmt.shift_ofUnread h.ne_nil h.significant).symm
    | some s => rfl

/-- A lenient reading reads what stands further on as the same sentence further on. -/
theorem sentence_within (hr : r.strict = false) (h : r.Readable ts) {s : Sentence}
    (hs : r.sentence ts = .ok s) :
    (r.within before after).sentence (ts.map (Token.shift (byteLength before))) =
      .ok (s.shift (byteLength before)) := by
  have hshifts : ShiftsAt (byteLength before) (parseSentence r.settings) ts :=
    parseSentence_shift r.settings h.ne_nil h.significant
  rcases hparse : parseSentence r.settings ts with e | s'
  · obtain ⟨e', he'⟩ := hshifts.error hparse
    rw [sentence_of_rejected hr hparse] at hs
    obtain rfl := Except.ok.inj hs
    rw [sentence_of_rejected (r := r.within before after) hr he', rejected_within h]
    rfl
  · simp only [sentence, hparse] at hs
    obtain rfl := Except.ok.inj hs
    have hparse' : parseSentence (r.within before after).settings _ = _ := hshifts.ok hparse
    simp only [sentence, hparse']

theorem body_within (hr : r.strict = false) (h : r.Readable ts) {s : Stmt} (hs : r.body ts = .ok s) :
    (r.within before after).body (ts.map (Token.shift (byteLength before))) =
      .ok (s.shift (byteLength before)) := by
  fun_induction r.body ts generalizing s with
  | case1 ts e he => cases hs
  | case2 ts s' hsentence =>
    obtain rfl := Except.ok.inj hs
    rw [body, sentence_within hr h hsentence]
    rfl
  | case3 ts label hsentence =>
    obtain rfl := Except.ok.inj hs
    rw [body, sentence_within hr h hsentence, Stmt.shift_underHeader, Stmt.shift_noBody]
    rfl
  | case4 ts label rest hsentence hlt ih =>
    rcases hbody : r.body rest with e | s' <;> rw [hbody] at hs
    · cases hs
    · obtain rfl := Except.ok.inj hs
      have hlt' : (rest.map (Token.shift (byteLength before))).length <
          (ts.map (Token.shift (byteLength before))).length := by simpa using hlt
      rw [body, sentence_within hr h hsentence, Stmt.shift_underHeader]
      simp only [Sentence.shift, Option.map_some, hlt', if_true, ih (h.body hsentence) hbody]
      rfl
  | case5 ts label rest hsentence hlt =>
    obtain rfl := Except.ok.inj hs
    have hlt' : ¬(rest.map (Token.shift (byteLength before))).length <
        (ts.map (Token.shift (byteLength before))).length := by simpa using hlt
    rw [body, sentence_within hr h hsentence, Stmt.shift_ofUnread h.ne_nil h.significant]
    simp only [Sentence.shift, Option.map_some, hlt', if_false]

end Reading

/-! Contributions. -/

/-- The contribution `n` bytes further on. -/
def Contribution.shift (n : Nat) : Contribution → Contribution
  | .stmt s => .stmt (s.shift n)
  | .header label body => .header (label.shift n) (body.map (Stmt.shift n))

theorem Draft.shift_add (d : Draft) (c : Contribution) :
    (d.add c).shift n = (d.shift n).add (c.shift n) := by
  cases c with
  | stmt s => exact shift_addStatement d s
  | header label body => exact shift_addHeader d label body

theorem Draft.shift_foldl_add (d : Draft) (cs : List Contribution) :
    (cs.foldl Draft.add d).shift n = (cs.map (Contribution.shift n)).foldl Draft.add (d.shift n) := by
  induction cs generalizing d with
  | nil => rfl
  | cons c cs ih => rw [List.foldl_cons, ih, shift_add, List.map_cons, List.foldl_cons]

namespace Reading

variable {r : Reading} {before after : List Char} {ts : List Token} {span : Span} {p : Paragraph}

theorem Contributes.within (hr : r.strict = false) (h : r.Readable ts) {c : Contribution}
    (hc : r.Contributes ts c) :
    (r.within before after).Contributes (ts.map (Token.shift (byteLength before)))
      (c.shift (byteLength before)) := by
  cases hc with
  | stmt hs => exact .stmt (sentence_within hr h hs)
  | header hs => exact .header (sentence_within hr h hs)
  | body hs hbody => exact .body (sentence_within hr h hs) (body_within hr (h.body hs) hbody)

/-! Paragraphs. -/

/-- A span between two cuts of the text that is read. -/
def Spans (r : Reading) (span : Span) : Prop :=
  Cut r.text span.start ∧ Cut r.text span.stop ∧ span.start ≤ span.stop

theorem Spans.of_sits {whole : List Char} (hwhole : Layout.Blanked whole r.text)
    (h : span.Sits (Cut whole)) : r.Spans span :=
  ⟨hwhole.cut h.2.1, hwhole.cut h.2.2, h.1⟩

theorem tokens_within (h : r.Spans span) :
    (r.within before after).tokens (span.shift (byteLength before)) =
      (r.tokens span).map (Token.shift (byteLength before)) := by
  have hslice : slice (before ++ (r.text ++ after)) (span.start + byteLength before)
      (span.stop + byteLength before) = slice r.text span.start span.stop :=
    slice_within before after h.1 h.2.1.le
  simp only [tokens, within, Span.shift, hslice, Token.scanFrom_shift, Token.significant,
    Token.filter_isSignificant_shift]

theorem readable_of_mem_sentences (h : r.Spans span) (hts : ts ∈ Layout.sentences (r.tokens span)) :
    r.Readable ts := by
  refine ⟨Layout.ne_nil_of_mem_sentences hts, fun t ht => ?_⟩
  have hmem := (Layout.sublist_of_mem_sentences hts).subset ht
  obtain ⟨hscan, hsignificant⟩ := List.mem_filter.1 hmem
  obtain ⟨left, part, right, htext, hstart, hstop⟩ := h.1.exists_part h.2.1 h.2.2
  rw [htext, ← hstart, ← hstop, slice_part] at hscan
  obtain ⟨i, j, hi, hj, hti, htj⟩ := Token.cut_of_mem_scanFrom hscan
  rw [htext, hti, htj]
  exact ⟨hsignificant, hi.within left right, hj.within left right⟩

/-- A paragraph of a part of a text is read in the text as it is read in the part. -/
theorem paragraph_within (hr : r.strict = false) (h : r.Spans span) (hp : r.paragraph span = .ok p) :
    (r.within before after).paragraph (span.shift (byteLength before)) =
      .ok (p.shift (byteLength before)) := by
  obtain ⟨cs, hcs, rfl⟩ := paragraph_eq_ok_iff.1 hp
  refine paragraph_eq_ok_iff.2 ⟨cs.map (Contribution.shift (byteLength before)), ?_, ?_⟩
  · rw [tokens_within h, Layout.sentences_shift, Contributions, List.forall₂_map_left_iff,
      List.forall₂_map_right_iff]
    have hread := (List.forall₂_and_left _ _).2
      ⟨fun ts hts => readable_of_mem_sentences h hts, hcs⟩
    exact hread.imp fun ts c hc => hc.2.within hr hc.1
  · have hfold := Draft.shift_foldl_add (n := byteLength before) {} cs
    exact congrArg (fun d => d.finish (span.shift (byteLength before))) hfold

end Reading

end Prose
