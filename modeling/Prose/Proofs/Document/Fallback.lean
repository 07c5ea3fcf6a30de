import Prose.Proofs.Document.Containment
import Prose.Proofs.Document.Locality
import Prose.Proofs.Loose.Outcome

/- Loose declarations change nothing else. A document read with them and the same document
   read without them have the same paragraphs, spans and labels, and statement by statement
   they say the same: only where nothing could read a statement, there may be a declaration
   instead, and it covers what the unread tokens covered. Since it does, headers above it
   cover the same, too, and paragraphs are put together in the same way. -/
namespace Prose

open Grammar

/-! Trees that agree except for loose declarations. -/

/-- The second statement is the first one, or a declaration at its place if nothing could
    read the first one. Below a header the same holds of its body. -/
inductive Stmt.Loosens : Stmt → Stmt → Prop where
  | same (s : Stmt) : Loosens s s
  | variableDeclaration (tokens : List Token) (d : VariableDeclaration) (span : Span) :
      Loosens (.invalid tokens span) (.variableDeclaration d span)
  | shapeDeclaration (tokens : List Token) (d : Shape) (span : Span) :
      Loosens (.invalid tokens span) (.shapeDeclaration d span)
  | labeled (label : Label) {s t : Stmt} (span : Span) (h : Loosens s t) :
      Loosens (.labeled label s span) (.labeled label t span)

namespace Stmt

variable {s t : Stmt} {label : Label}

theorem Loosens.span_eq (h : s.Loosens t) : t.span = s.span := by
  cases h <;> rfl

/-- A header covers the same above both. -/
theorem Loosens.underHeader (h : s.Loosens t) : (underHeader label s).Loosens (underHeader label t) := by
  rw [Stmt.underHeader, Stmt.underHeader, h.span_eq]
  exact .labeled label _ h

/-- A declaration may stand where its span is that of unread tokens. -/
theorem loosens_of_declares {tokens : List Token} {span : Span}
    (h : LooseDeclaration.Declares span t) : (invalid tokens span).Loosens t := by
  cases h with
  | variableDeclaration => exact .variableDeclaration _ _ _
  | shapeDeclaration => exact .shapeDeclaration _ _ _

end Stmt

/-- Paragraphs with the same place and label whose statements agree one by one. -/
structure Paragraph.Loosens (p q : Paragraph) : Prop where
  span : p.span = q.span
  label : p.label = q.label
  statements : List.Forall₂ Stmt.Loosens p.statements q.statements

/-! Contributions. -/

namespace Contribution

/-- Statements that agree, or the same header above bodies that agree. -/
inductive Loosens : Contribution → Contribution → Prop where
  | stmt {s t : Stmt} (h : s.Loosens t) : Loosens (.stmt s) (.stmt t)
  | header (label : Label) : Loosens (.header label none) (.header label none)
  | body (label : Label) {s t : Stmt} (h : s.Loosens t) :
      Loosens (.header label (some s)) (.header label (some t))

variable {c d : Contribution} {cs ds : List Contribution}

theorem Loosens.statement (h : c.Loosens d) : c.statement.Loosens d.statement := by
  cases h with
  | stmt h => exact h
  | header label => exact .same _
  | body label h => exact h.underHeader

theorem loosens_statements (h : List.Forall₂ Loosens cs ds) :
    List.Forall₂ Stmt.Loosens (cs.map statement) (ds.map statement) := by
  rw [List.forall₂_map_left_iff, List.forall₂_map_right_iff]
  exact h.imp fun _ _ hcd => hcd.statement

/-- The same headers make up the label. -/
theorem Loosens.heading_eq (h : List.Forall₂ Loosens cs ds) : heading cs = heading ds := by
  induction h with
  | nil => rfl
  | cons h _ ih =>
    cases h with
    | stmt => rfl
    | header label => rw [heading_bodyless, heading_bodyless, ih]
    | body => rfl

theorem loosens_statementsOf (h : List.Forall₂ Loosens cs ds) :
    List.Forall₂ Stmt.Loosens (statementsOf cs) (statementsOf ds) := by
  induction h with
  | nil => exact .nil
  | cons h hrest ih =>
    cases h with
    | stmt h => exact .cons h (loosens_statements hrest)
    | header label => exact ih
    | body label h => exact .cons h (loosens_statements hrest)

end Contribution

/-! Readings. -/

namespace Reading

variable {r : Reading} {ts : List Token}

/-- The reading with loose declarations or without them. -/
def withFallback (r : Reading) (fallback : Bool) : Reading :=
  { r with settings := { r.settings with fallback := fallback } }

/-- What the grammar rejects stays unread, or is a declaration at the same place. -/
theorem rejected_loosens (hts : ∀ t ∈ ts, t.isSignificant) :
    ((r.withFallback false).rejected ts).Loosens ((r.withFallback true).rejected ts) := by
  have hplain : (r.withFallback false).rejected ts = .ofUnread ts := rfl
  have hunread : Stmt.ofUnread ts = .invalid ts (.ofTokens ts) := by
    simp only [Stmt.ofUnread, List.filter_eq_self.2 hts]
  rw [hplain, rejected]
  simp only [withFallback, if_true]
  split
  · next s hs =>
    rcases hparse : LooseDeclaration.parse _ _ with e | s' <;> rw [hparse] at hs
    · cases hs
    · obtain rfl := Option.some.inj hs
      rw [hunread]
      exact Stmt.loosens_of_declares (LooseDeclaration.declares_parse hparse)
  · exact .same _

/-- A sentence is the same in both readings unless the grammar rejects it, and then it is a
    statement in both. -/
theorem sentence_loosens (hr : r.strict = false) (hts : ∀ t ∈ ts, t.isSignificant) :
    (r.withFallback true).sentence ts = (r.withFallback false).sentence ts ∨
      ∃ s t, (r.withFallback false).sentence ts = .ok (.stmt s) ∧
        (r.withFallback true).sentence ts = .ok (.stmt t) ∧ s.Loosens t := by
  have hstrict (fallback : Bool) : (r.withFallback fallback).strict = false := hr
  -- the grammar does not know of loose declarations
  have hgrammar (fallback : Bool) :
      parseSentence (r.withFallback fallback).settings ts = parseSentence r.settings ts := rfl
  rcases hparse : parseSentence r.settings ts with e | s
  · refine .inr ⟨_, _, ?_, ?_, rejected_loosens (r := r) hts⟩
    · exact sentence_of_rejected (hstrict false) ((hgrammar false).trans hparse)
    · exact sentence_of_rejected (hstrict true) ((hgrammar true).trans hparse)
  · left
    simp only [sentence, hgrammar, hparse]

theorem stmt_loosens (hr : r.strict = false) (hts : ∀ t ∈ ts, t.isSignificant) {s : Stmt}
    (hs : (r.withFallback false).sentence ts = .ok (.stmt s)) :
    ∃ t, (r.withFallback true).sentence ts = .ok (.stmt t) ∧ s.Loosens t := by
  rcases sentence_loosens hr hts with hsame | ⟨_, t, hplain, hloose, h⟩
  · exact ⟨s, hsame.trans hs, .same _⟩
  · rw [hs] at hplain
    obtain rfl := Sentence.stmt.inj (Except.ok.inj hplain)
    exact ⟨t, hloose, h⟩

/-- Whatever is read as a header was not rejected. -/
theorem header_kept (hr : r.strict = false) (hts : ∀ t ∈ ts, t.isSignificant) {label : Label}
    {rest : Option (List Token)} (hs : (r.withFallback false).sentence ts = .ok (.header label rest)) :
    (r.withFallback true).sentence ts = .ok (.header label rest) := by
  rcases sentence_loosens hr hts with hsame | ⟨_, _, hplain, -⟩
  · exact hsame.trans hs
  · rw [hs] at hplain
    cases hplain

theorem body_loosens (hr : r.strict = false) (hts : ∀ t ∈ ts, t.isSignificant) {s : Stmt}
    (hs : (r.withFallback false).body ts = .ok s) :
    ∃ t, (r.withFallback true).body ts = .ok t ∧ s.Loosens t := by
  -- on the headers above each other; the body of the innermost is a sentence of either kind
  fun_induction (r.withFallback false).body ts generalizing s with
  | case1 ts e he => cases hs
  | case2 ts s' hsentence =>
    obtain rfl := Except.ok.inj hs
    obtain ⟨t, hloose, h⟩ := stmt_loosens hr hts hsentence
    exact ⟨t, by rw [body, hloose], h⟩
  | case3 ts label hsentence =>
    exact ⟨s, by rw [body, header_kept hr hts hsentence, ← hs], .same _⟩
  | case4 ts label rest hsentence hlt ih =>
    rcases hbody : (r.withFallback false).body rest with e | s' <;> rw [hbody] at hs
    · cases hs
    obtain rfl := Except.ok.inj hs
    obtain ⟨-, hsub⟩ := body_of_sentence hts hsentence
    obtain ⟨t, ht, h⟩ := ih (fun u hu => hts u (hsub.subset hu)) hbody
    refine ⟨.underHeader label t, ?_, h.underHeader⟩
    rw [body, header_kept hr hts hsentence]
    simp only [hlt, if_true, ht]
    rfl
  | case5 ts label rest hsentence hlt =>
    refine ⟨s, ?_, .same _⟩
    rw [body, header_kept hr hts hsentence, ← hs]
    simp only [hlt, if_false]

theorem contributes_loosens (hr : r.strict = false) (hts : ∀ t ∈ ts, t.isSignificant)
    {c : Contribution} (hc : (r.withFallback false).Contributes ts c) :
    ∃ d, (r.withFallback true).Contributes ts d ∧ c.Loosens d := by
  cases hc with
  | stmt hs =>
    obtain ⟨t, hloose, h⟩ := stmt_loosens hr hts hs
    exact ⟨_, .stmt hloose, .stmt h⟩
  | header hs => exact ⟨_, .header (header_kept hr hts hs), .header _⟩
  | body hs hbody =>
    obtain ⟨-, hsub⟩ := body_of_sentence hts hs
    obtain ⟨t, ht, h⟩ := body_loosens hr (fun u hu => hts u (hsub.subset hu)) hbody
    exact ⟨_, .body (header_kept hr hts hs) ht, .body _ h⟩

theorem contributions_loosen (hr : r.strict = false) {fragments : List (List Token)}
    (hfragments : ∀ ts ∈ fragments, ∀ t ∈ ts, t.isSignificant) {cs : List Contribution}
    (hcs : (r.withFallback false).Contributions fragments cs) :
    ∃ ds, (r.withFallback true).Contributions fragments ds ∧
      List.Forall₂ Contribution.Loosens cs ds := by
  induction hcs with
  | nil => exact ⟨[], .nil, .nil⟩
  | cons hc _ ih =>
    rw [List.forall_mem_cons] at hfragments
    obtain ⟨d, hd, h⟩ := contributes_loosens hr hfragments.1 hc
    obtain ⟨ds, hds, hall⟩ := ih hfragments.2
    exact ⟨d :: ds, .cons hd hds, .cons h hall⟩

/-- Every paragraph is read in both ways, from the same fragments. -/
theorem paragraph_loosens (hr : r.strict = false) {span : Span} {p : Paragraph}
    (hp : (r.withFallback false).paragraph span = .ok p) :
    ∃ q, (r.withFallback true).paragraph span = .ok q ∧ p.Loosens q := by
  obtain ⟨cs, hcs, rfl⟩ := paragraph_eq_ok_iff.1 hp
  have hfragments : ∀ ts ∈ Layout.sentences (r.tokens span), ∀ t ∈ ts, t.isSignificant :=
    fun ts hts => significant_of_mem_sentences hts
  obtain ⟨ds, hds, h⟩ := contributions_loosen hr hfragments hcs
  refine ⟨_, paragraph_eq_ok_iff.2 ⟨ds, hds, rfl⟩, ?_⟩
  rw [Draft.finish_foldl_add, Draft.finish_foldl_add]
  exact ⟨rfl, by rw [Contribution.Loosens.heading_eq h], Contribution.loosens_statementsOf h⟩

end Reading

/-! Documents. -/

namespace Document

variable {settings : ReadingSettings} {text : String}

/-- What the paragraphs of a text are read as with loose declarations. -/
theorem exists_loosened {spans : List Span} {ps : List Paragraph}
    (h : List.Forall₂ (fun span p =>
      (Reading.ofText { settings with fallback := false } false text).paragraph span = .ok p) spans ps) :
    ∃ qs, List.Forall₂ (fun span q =>
        (Reading.ofText { settings with fallback := true } false text).paragraph span = .ok q) spans qs ∧
      List.Forall₂ Paragraph.Loosens ps qs := by
  induction h with
  | nil => exact ⟨[], .nil, .nil⟩
  | cons hp _ ih =>
    obtain ⟨q, hq, h⟩ := Reading.paragraph_loosens (r := .ofText settings false text) rfl hp
    obtain ⟨qs, hqs, hall⟩ := ih
    exact ⟨q :: qs, .cons hq hqs, .cons h hall⟩

/-- A strict reading stops at what the grammar rejects, so it never looks for a loose
    declaration. -/
theorem parse_strict_fallback (settings : ReadingSettings) (text : String) (fallback : Bool) :
    parse { settings with fallback := fallback } text true = parse settings text true := by
  have hread : read { settings with fallback := fallback } true text = read settings true text := by
    refine read_congr (P := fun _ => True) ⟨rfl, fun {ts} _ => ?_, fun _ _ => trivial⟩
      fun _ _ _ => trivial
    simp only [Reading.sentence, Reading.ofText]
    rfl
  simp only [parse, hread]

end Document

/-- The fallback is conservative. A text read with loose declarations and without them gives
    documents of the same span, with paragraphs of the same spans and labels and as many
    statements; and at every place, the bodies of headers included, both have the same
    statement, or tokens that nothing could read stand in the one and a declaration with
    their span in the other. -/
theorem fallback_conservative (settings : ReadingSettings) (text : String) (strict : Bool) :
    let plain := Document.parse { settings with fallback := false } text strict
    let loose := Document.parse { settings with fallback := true } text strict
    plain.span = loose.span ∧ List.Forall₂ Paragraph.Loosens plain.paragraphs loose.paragraphs := by
  intro plain loose
  cases strict with
  | true =>
    have hsame : plain = loose :=
      (Document.parse_strict_fallback settings text false).trans
        (Document.parse_strict_fallback settings text true).symm
    rw [hsame]
    have hrefl (p : Paragraph) : p.Loosens p := ⟨rfl, rfl, List.forall₂_same.2 fun s _ => .same s⟩
    exact ⟨rfl, List.forall₂_same.2 fun p _ => hrefl p⟩
  | false =>
    obtain ⟨qs, hqs, h⟩ := Document.exists_loosened (Document.paragraphs_parse _ text)
    have hloose : loose.paragraphs = qs := Document.paragraphs_unique hqs
    have hspan (fallback : Bool) :
        (Document.parse { settings with fallback := fallback } text).span = Document.spanOf text :=
      (Document.read_eq_ok_iff.1 (Document.read_parse _ text)).2
    refine ⟨(hspan false).trans (hspan true).symm, ?_⟩
    rw [hloose]
    exact h

end Prose
