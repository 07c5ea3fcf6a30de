import Mathlib.Data.List.Forall2
import Prose.Document.Read

/- Contributions: what a fragment of a paragraph adds to it. A paragraph that is read is
   assembled from the contributions of its fragments, in their order, and a document
   from its paragraphs. A lenient reading, which does not stop at what the grammar
   rejects, never fails, and gives what a strict one gives where that gives something. -/
namespace Prose

open Grammar

/-! Lists that are read item by item. -/

section Lists

variable {ε α β : Type} {f : α → Except ε β} {as : List α} {bs : List β}

theorem mapM_eq_ok_iff : as.mapM f = .ok bs ↔ List.Forall₂ (fun a b => f a = .ok b) as bs := by
  induction as generalizing bs with
  | nil => cases bs <;> simp [pure, Except.pure]
  | cons a as ih =>
    rw [List.mapM_cons, List.forall₂_cons_left_iff]
    simp only [← ih]
    rcases f a with e | b
    · simp [bind, Except.bind]
    · rcases as.mapM f with e | bs' <;> simp [bind, Except.bind, pure, Except.pure, eq_comm]

/-- What stands in the second list comes from something in the first. -/
theorem exists_mem_of_forall₂ {R : α → β → Prop} (h : List.Forall₂ R as bs) {b : β} (hb : b ∈ bs) :
    ∃ a ∈ as, R a b := by
  induction h with
  | nil => exact absurd hb List.not_mem_nil
  | @cons a b' as bs hab _ ih =>
    rcases List.mem_cons.1 hb with rfl | hb
    · exact ⟨a, List.mem_cons_self, hab⟩
    · obtain ⟨a', ha', hab'⟩ := ih hb
      exact ⟨a', List.mem_cons_of_mem _ ha', hab'⟩

/-- Where every item can be read, the list can be. -/
theorem exists_forall₂ {R : α → β → Prop} (h : ∀ a, ∃ b, R a b) (as : List α) :
    ∃ bs, List.Forall₂ R as bs := by
  induction as with
  | nil => exact ⟨[], .nil⟩
  | cons a as ih =>
    obtain ⟨b, hb⟩ := h a
    obtain ⟨bs, hbs⟩ := ih
    exact ⟨b :: bs, .cons hb hbs⟩

end Lists

/-- What a fragment adds to its paragraph: a statement, or a header with the statement
    that its body was read as. -/
inductive Contribution where
  | stmt (s : Stmt)
  | header (label : Label) (body : Option Stmt)

/-- The draft with one more contribution. -/
def Draft.add (d : Draft) : Contribution → Draft
  | .stmt s => d.addStatement s
  | .header label body => d.addHeader label body

namespace Reading

variable {r : Reading} {ts : List Token} {c : Contribution}

/-- A fragment is read as a contribution. -/
inductive Contributes (r : Reading) (ts : List Token) : Contribution → Prop where
  | stmt {s : Stmt} (h : r.sentence ts = .ok (.stmt s)) : Contributes r ts (.stmt s)
  | header {label : Label} (h : r.sentence ts = .ok (.header label none)) :
      Contributes r ts (.header label none)
  | body {label : Label} {rest : List Token} {s : Stmt}
      (h : r.sentence ts = .ok (.header label (some rest))) (hbody : r.body rest = .ok s) :
      Contributes r ts (.header label (some s))

theorem addSentence_eq_ok_iff {d d' : Draft} :
    r.addSentence d ts = .ok d' ↔ ∃ c, r.Contributes ts c ∧ d' = d.add c := by
  constructor
  · intro h
    simp only [addSentence] at h
    split at h
    · cases h
    · next s hs => exact ⟨_, .stmt hs, (Except.ok.inj h).symm⟩
    · next label hs => exact ⟨_, .header hs, (Except.ok.inj h).symm⟩
    · next label rest hs =>
      rcases hbody : r.body rest with e | s <;> rw [hbody] at h
      · cases h
      · exact ⟨_, .body hs hbody, (Except.ok.inj h).symm⟩
  · rintro ⟨c, hc, rfl⟩
    cases hc with
    | stmt h => simp only [addSentence, h, Draft.add]
    | header h => simp only [addSentence, h, Draft.add]
    | body h hbody => simp only [addSentence, h, hbody, Except.map, Draft.add]

/-- The contributions of some fragments, one each. -/
def Contributions (r : Reading) : List (List Token) → List Contribution → Prop :=
  List.Forall₂ r.Contributes

theorem foldlM_addSentence_eq_ok_iff {fragments : List (List Token)} {d d' : Draft} :
    fragments.foldlM r.addSentence d = .ok d' ↔
      ∃ cs, r.Contributions fragments cs ∧ d' = cs.foldl Draft.add d := by
  induction fragments generalizing d with
  | nil =>
    constructor
    · intro h
      exact ⟨[], .nil, (Except.ok.inj h).symm⟩
    · rintro ⟨cs, ⟨⟩, rfl⟩
      rfl
  | cons ts fragments ih =>
    rw [List.foldlM_cons]
    constructor
    · intro h
      rcases hfirst : r.addSentence d ts with e | d₁ <;> rw [hfirst] at h
      · cases h
      · obtain ⟨c, hc, rfl⟩ := addSentence_eq_ok_iff.1 hfirst
        obtain ⟨cs, hcs, rfl⟩ := ih.1 h
        exact ⟨c :: cs, .cons hc hcs, rfl⟩
    · rintro ⟨cs, hcs, rfl⟩
      cases hcs with
      | cons hc hcs =>
        rw [addSentence_eq_ok_iff.2 ⟨_, hc, rfl⟩]
        exact ih.2 ⟨_, hcs, rfl⟩

/-- A paragraph that is read is assembled from what its fragments contribute. -/
theorem paragraph_eq_ok_iff {span : Span} {p : Paragraph} :
    r.paragraph span = .ok p ↔
      ∃ cs, r.Contributions (Layout.sentences (r.tokens span)) cs ∧
        p = (cs.foldl Draft.add {}).finish span := by
  rw [paragraph]
  constructor
  · intro h
    rcases hfold : (Layout.sentences (r.tokens span)).foldlM r.addSentence {} with e | d <;>
      rw [hfold] at h
    · cases h
    · obtain ⟨cs, hcs, rfl⟩ := foldlM_addSentence_eq_ok_iff.1 hfold
      exact ⟨cs, hcs, (Except.ok.inj h).symm⟩
  · rintro ⟨cs, hcs, rfl⟩
    rw [foldlM_addSentence_eq_ok_iff.2 ⟨cs, hcs, rfl⟩]
    rfl

/-! Lenient readings. -/

/-- The reading that goes on behind what the grammar rejects. -/
def lenient (r : Reading) : Reading := { r with strict := false }

theorem sentence_lenient {s : Sentence} (h : r.sentence ts = .ok s) :
    r.lenient.sentence ts = .ok s := by
  rcases hparse : parseSentence r.settings ts with e | s' <;>
    simp only [sentence, lenient, hparse] at h ⊢
  · split at h
    · cases h
    · exact h
  · exact h

theorem body_lenient {s : Stmt} (h : r.body ts = .ok s) : r.lenient.body ts = .ok s := by
  fun_induction r.body ts generalizing s with
  | case1 ts e he => cases h
  | case2 ts s' hs => rw [body, sentence_lenient hs, ← h]
  | case3 ts label hl => rw [body, sentence_lenient hl, ← h]
  | case4 ts label rest hl hlt ih =>
    rcases hbody : r.body rest with e | s' <;> rw [hbody] at h ih
    · cases h
    · rw [body, sentence_lenient hl]
      simp only [hlt, if_true, ih rfl, ← h]
  | case5 ts label rest hl hlt =>
    rw [body, sentence_lenient hl]
    simp only [hlt, if_false, ← h]

theorem Contributes.lenient (h : r.Contributes ts c) : r.lenient.Contributes ts c := by
  cases h with
  | stmt h => exact .stmt (sentence_lenient h)
  | header h => exact .header (sentence_lenient h)
  | body h hbody => exact .body (sentence_lenient h) (body_lenient hbody)

theorem paragraph_lenient {span : Span} {p : Paragraph} (h : r.paragraph span = .ok p) :
    r.lenient.paragraph span = .ok p := by
  obtain ⟨cs, hcs, rfl⟩ := paragraph_eq_ok_iff.1 h
  exact paragraph_eq_ok_iff.2 ⟨cs, hcs.imp fun _ _ hc => hc.lenient, rfl⟩

/-- What the grammar rejects is a statement, too. -/
theorem sentence_of_rejected (hr : r.strict = false) {e : ParseFailure}
    (h : parseSentence r.settings ts = .error e) : r.sentence ts = .ok (.stmt (r.rejected ts)) := by
  simp only [sentence, h, hr, Bool.false_eq_true, if_false]

theorem sentence_total (hr : r.strict = false) (ts : List Token) : ∃ s, r.sentence ts = .ok s := by
  rcases h : parseSentence r.settings ts with e | s
  · exact ⟨_, sentence_of_rejected hr h⟩
  · exact ⟨s, by simp only [sentence, h]⟩

theorem body_total (hr : r.strict = false) (ts : List Token) : ∃ s, r.body ts = .ok s := by
  fun_induction r.body ts with
  | case1 ts e he =>
    obtain ⟨s, hs⟩ := sentence_total hr ts
    rw [he] at hs
    cases hs
  | case2 | case3 | case5 => exact ⟨_, rfl⟩
  | case4 ts label rest hl hlt ih =>
    obtain ⟨s, hs⟩ := ih
    exact ⟨_, by rw [hs]; rfl⟩

theorem contributes_total (hr : r.strict = false) (ts : List Token) : ∃ c, r.Contributes ts c := by
  obtain ⟨s, hs⟩ := sentence_total hr ts
  match s, hs with
  | .stmt s, hs => exact ⟨_, .stmt hs⟩
  | .header label none, hs => exact ⟨_, .header hs⟩
  | .header label (some rest), hs =>
    obtain ⟨s, hbody⟩ := body_total hr rest
    exact ⟨_, .body hs hbody⟩

theorem paragraph_total (hr : r.strict = false) (span : Span) : ∃ p, r.paragraph span = .ok p := by
  obtain ⟨cs, hcs⟩ := exists_forall₂ (contributes_total hr) (Layout.sentences (r.tokens span))
  exact ⟨_, paragraph_eq_ok_iff.2 ⟨cs, hcs, rfl⟩⟩

/-- The reading of a text under some settings. -/
def ofText (settings : ReadingSettings) (strict : Bool) (text : String) : Reading :=
  ⟨settings, strict, Layout.withoutComments settings.commentMarker text.toList⟩

end Reading

/-! Documents. -/

namespace Document

variable {settings : ReadingSettings} {strict : Bool} {text : String} {d : Document}

/-- A document that is read has a paragraph for each chunk of the text. -/
theorem read_eq_ok_iff :
    read settings strict text = .ok d ↔
      List.Forall₂ (fun span p => (Reading.ofText settings strict text).paragraph span = .ok p)
        (Layout.paragraphSpans text.toList) d.paragraphs ∧ d.span = spanOf text := by
  simp only [read]
  rw [← mapM_eq_ok_iff]
  constructor
  · intro h
    rcases hps : (Layout.paragraphSpans text.toList).mapM
      (Reading.ofText settings strict text).paragraph with e | ps
    · simp only [Reading.ofText] at hps
      rw [hps] at h
      cases h
    · simp only [Reading.ofText] at hps
      rw [hps] at h
      obtain rfl := Except.ok.inj h
      exact ⟨rfl, rfl⟩
  · rintro ⟨hps, hspan⟩
    simp only [Reading.ofText] at hps
    rw [hps, ← hspan]
    rfl

theorem read_lenient (h : read settings true text = .ok d) : read settings false text = .ok d := by
  obtain ⟨hps, hspan⟩ := read_eq_ok_iff.1 h
  exact read_eq_ok_iff.2 ⟨hps.imp fun _ _ hp => Reading.paragraph_lenient hp, hspan⟩

/-- A lenient reading never fails. -/
theorem read_parse (settings : ReadingSettings) (text : String) :
    read settings false text = .ok (parse settings text) := by
  have hr : (Reading.ofText settings false text).strict = false := rfl
  obtain ⟨ps, hps⟩ := exists_forall₂ (Reading.paragraph_total hr) (Layout.paragraphSpans text.toList)
  have hread : read settings false text = .ok ⟨ps, spanOf text⟩ := read_eq_ok_iff.2 ⟨hps, rfl⟩
  rw [parse, hread]

theorem paragraphs_parse (settings : ReadingSettings) (text : String) :
    List.Forall₂ (fun span p => (Reading.ofText settings false text).paragraph span = .ok p)
      (Layout.paragraphSpans text.toList) (parse settings text).paragraphs :=
  (read_eq_ok_iff.1 (read_parse settings text)).1

end Document

end Prose
