import Prose.Proofs.Grammar.Completeness
import Prose.Proofs.Grammar.DerivedSentence
import Prose.Proofs.Grammar.Markers

/- Calls and what they call. A procedure is called by the words of its header: the phrase of
   a `to` header, read on its own, is a call with the same marker, the same parameters and
   the same result. The one exception is a phrase that ends in `in a|an|the <name>`, because
   a call may have its result there and a header may not. -/
namespace Prose.Grammar

open Rule

namespace Phrase

variable {α : Type} {p : Phrase} {opening colon : Token} {ts : List Token} {m : MarkerPhrase}

theorem ofKind?_kindAt (p : Phrase) : Entry.ofKind? (p.kindAt 0) = entryOf? p.tokens := by
  rw [kindAt, tokenAt, entryOf?, List.head?_eq_getElem?]
  cases p.tokens[0]? <;> rfl

/-- What succeeds from the start is read. -/
theorem exists_read {x : Rule α} {P : α → Prop} {j : Nat} (h : x.Yields 0 P j) :
    ∃ a, p.read x = .ok a ∧ P a := by
  obtain ⟨a, t, hrun, ha, -⟩ := h {} rfl
  exact ⟨a, by simp only [read, hrun], ha⟩

/-- The label of a `to` header that ends in a colon is its phrase. -/
theorem gives_toHeader (htokens : p.tokens = opening :: (ts ++ [colon])) (hto : opening.kind = .toWord)
    (hcolon : colon.kind = .colon) (hts : ∀ t ∈ ts, t.kind ≠ .colon ∧ t.kind ≠ .arrow) :
    p.keywordHeader.Gives 0 fun s _ => ∃ m span body, markerPhrase [.intoWord] ts = .ok m ∧
      s = .header ⟨[m.marker], m.parameters, m.result, span⟩ body := by
  have hall : p.Took 0 (opening :: (ts ++ [colon])) p.size := htokens ▸ took_all
  obtain ⟨hfirst, hrest⟩ := took_cons.1 hall
  obtain ⟨k, hphrase, hlast⟩ := took_append.1 hrest
  obtain ⟨hlast, -⟩ := took_cons.1 hlast
  have hfound : p.find? 1 [.colon, .arrow] = some k := by
    refine find?_first (fun t ht hkind => ?_) (by simp [hcolon]) hphrase hlast
    simp only [List.mem_cons, List.not_mem_nil, or_false] at hkind
    exact hkind.elim (hts t ht).1 (hts t ht).2
  refine .position ((reads_eatAny (by decide) 0).bind' ?_)
  intro keyword j hread
  obtain ⟨_, hkeyword, -, rfl⟩ := hread
  obtain rfl : keyword = opening := hkeyword.tokenAt_eq.symm.trans hfirst.tokenAt_eq
  obtain rfl : j = 1 := hkeyword.2
  refine .position (.ite' (fun h => ?_) fun _ => ?_)
  · rw [hto] at h
    exact absurd h (by decide)
  · rw [hfound]
    unfold header
    simp only [Option.getD_some, hphrase.between_eq]
    split
    · exact .moveTo (.fail _)
    · next m hm => exact .ite' (fun _ => .moveTo (.fail _)) fun _ => .moveTo (.pure' ⟨m, _, _, hm, rfl⟩)

/-- A call is read where no arrow makes it a header. -/
theorem yields_call (harrow : ∀ t ∈ p.tokens, t.kind ≠ .arrow)
    (hm : markerPhrase [.intoWord, .inWord] p.tokens = .ok m) (hwords : m.words ≠ []) :
    (p.sentenceOf .invocation).Yields 0
      (fun s => ∃ span, s = .stmt (.invocation m.marker m.parameters m.result span)) p.size := by
  have hheader : p.bareHeader.Refuses 0 := by
    refine .position ?_
    split
    · exact .fail _
    · next k hk =>
      obtain ⟨-, hlt, hkind⟩ := find?_eq_some hk
      have htoken : p.tokenAt k ∈ p.tokens := by
        rw [tokenAt, List.getElem?_eq_getElem hlt]
        exact List.getElem_mem hlt
      exact absurd (List.mem_singleton.1 hkind) (harrow _ htoken)
  have hcall : p.invocation.Yields 0
      (fun s => ∃ span, s = .stmt (.invocation m.marker m.parameters m.result span)) p.size := by
    refine .position ?_
    simp only [took_all.between_eq, hm]
    refine .ite_neg (fun h => hwords (List.isEmpty_iff.1 h)) (.moveTo ?_)
    exact .bind' (yields_spanFrom 0) fun span _ => .pure' ⟨span, rfl⟩
  exact yields_firstComplete_later hheader (yields_firstComplete hcall kindAt_size)

end Phrase

variable {settings : ReadingSettings} {H : List Token} {opening colon : Token} {label : Label}
  {body : Option (List Token)} {m : MarkerPhrase}

/-- Headers and calls keep their comments. -/
theorem withoutComments_of_keeps {unannounced : Bool} {ts : List Token}
    (h : (entryOf? ts).map Entry.keepsComments = some true) : withoutComments unannounced ts = ts := by
  rw [withoutComments, h]
  rfl

theorem parseSentence_eq (settings : ReadingSettings) (ts : List Token) :
    parseSentence settings ts =
      let p := phraseOf settings.memoize settings.maxDepth
        (branchWithin settings.memoize settings.maxDepth) true (ts.filter Token.isSignificant)
      p.read p.sentence := by
  rw [parseSentence, sentenceWithin_eq]
  rfl

/-- What a label says was split off the phrase between the `to` and the colon. -/
theorem label_of_parseSentence (hto : opening.kind = .toWord) (hcolon : colon.kind = .colon)
    (hno : ∀ t ∈ H, t.kind ≠ .colon ∧ t.kind ≠ .arrow)
    (h : parseSentence settings (opening :: (H ++ [colon])) = .ok (.header label body)) :
    ∃ m, markerPhrase [.intoWord] (H.filter Token.isSignificant) = .ok m ∧
      label.marker = m.marker ∧ label.parameters = m.parameters ∧ label.result = m.result := by
  have hkept : (opening :: (H ++ [colon])).filter Token.isSignificant =
      opening :: (H.filter Token.isSignificant ++ [colon]) := by
    have hto' : opening.isSignificant = true := by simp [Token.isSignificant, hto]
    have hcolon' : colon.isSignificant = true := by simp [Token.isSignificant, hcolon]
    simp only [List.filter_cons, List.filter_append, hto', hcolon', if_true, List.filter_nil]
  rw [parseSentence_eq, hkept] at h
  have hentry : entryOf? (opening :: (H.filter Token.isSignificant ++ [colon])) = some .labeled := by
    rw [entryOf?, List.head?_cons, Option.bind_some, hto]
    rfl
  generalize hp : phraseOf _ _ _ true _ = p at h
  have htokens : p.tokens = opening :: (H.filter Token.isSignificant ++ [colon]) := by
    rw [← hp]
    exact withoutComments_of_keeps (by rw [hentry]; rfl)
  simp only [Phrase.sentence_eq .labeled (by rw [p.ofKind?_kindAt, htokens, hentry])] at h
  have hgives := Phrase.gives_toHeader htokens hto hcolon fun t ht => hno t (List.mem_of_mem_filter ht)
  obtain ⟨m, span, rest, hm, hlabel⟩ := Phrase.read_eq_ok (Gives.mono (Phrase.gives_complete hgives)
    fun _ _ h => h.1) h
  obtain ⟨rfl, -⟩ := Sentence.header.inj hlabel
  exact ⟨m, hm, rfl, rfl, rfl⟩

/-- A phrase that starts with a name is read as the call that it splits into. -/
theorem parseSentence_call (settings : ReadingSettings)
    (hfirst : (H.filter Token.isSignificant).head?.map Token.kind = some .identifier)
    (harrow : ∀ t ∈ H, t.kind ≠ .arrow)
    (hm : markerPhrase [.intoWord, .inWord] (H.filter Token.isSignificant) = .ok m) :
    ∃ span, parseSentence settings H = .ok (.stmt (.invocation m.marker m.parameters m.result span)) := by
  obtain ⟨first, hhead, hkind⟩ := Option.map_eq_some_iff.1 hfirst
  obtain ⟨rest, hH⟩ := List.head?_eq_some_iff.1 hhead
  have hentry : entryOf? (H.filter Token.isSignificant) = some .invocation := by
    rw [entryOf?, hhead, Option.bind_some, hkind]
    rfl
  rw [parseSentence_eq]
  generalize hp : phraseOf _ _ _ true _ = p
  have htokens : p.tokens = H.filter Token.isSignificant := by
    rw [← hp]
    exact withoutComments_of_keeps (by rw [hentry]; rfl)
  simp only [Phrase.sentence_eq .invocation (by rw [p.ofKind?_kindAt, htokens, hentry])]
  have hwords : m.words ≠ [] := by
    rw [hH] at hm
    exact words_ne_nil hkind (by decide) hm
  have hyields := Phrase.yields_call (p := p) (m := m)
    (fun t ht => harrow t (List.mem_of_mem_filter (htokens ▸ ht))) (htokens ▸ hm) hwords
  obtain ⟨s, hread, span, rfl⟩ := Phrase.exists_read hyields
  exact ⟨span, hread⟩

/-- A call that is written like its definition matches it. If a phrase that starts with a
    name and has no separator makes the header `to <phrase> :`, it is a call on its own, and
    the call has the marker, the parameters and the result of the label exactly if the phrase
    does not end in `in a|an|the <name>`. -/
theorem call_matches_label (hto : opening.kind = .toWord) (hcolon : colon.kind = .colon)
    (hfirst : (H.filter Token.isSignificant).head?.map Token.kind = some .identifier)
    (hno : ∀ t ∈ H, t.kind ≠ .colon ∧ t.kind ≠ .arrow)
    (h : parseSentence settings (opening :: (H ++ [colon])) = .ok (.header label body)) :
    ∃ marker parameters result span,
      parseSentence settings H = .ok (.stmt (.invocation marker parameters result span)) ∧
        ((marker = label.marker ∧ parameters = label.parameters ∧ result = label.result) ↔
          ¬EndsInPlace (H.filter Token.isSignificant)) := by
  obtain ⟨m, hm, hmarker, hparameters, hresult⟩ := label_of_parseSentence hto hcolon hno h
  have harrow : ∀ t ∈ H, t.kind ≠ .arrow := fun t ht => (hno t ht).2
  by_cases hplace : EndsInPlace (H.filter Token.isSignificant)
  · obtain ⟨hnone, call, hcall, hsome⟩ := splitMarker_place hplace hm
    obtain ⟨span, hread⟩ := parseSentence_call settings hfirst harrow hcall
    refine ⟨_, _, _, span, hread, iff_of_false ?_ (not_not.2 hplace)⟩
    intro hsame
    rw [hsame.2.2, hresult, hnone] at hsome
    cases hsome
  · have hcall : markerPhrase [.intoWord, .inWord] (H.filter Token.isSignificant) = .ok m :=
      (splitMarker_call hplace).trans hm
    obtain ⟨span, hread⟩ := parseSentence_call settings hfirst harrow hcall
    exact ⟨_, _, _, span, hread, iff_of_true ⟨hmarker.symm, hparameters.symm, hresult.symm⟩ hplace⟩

/-- `to move a box (gently) into the cart:` and `move a box (gently) into the cart` -/
theorem call_matches_label_move :
    let H : List Token := [⟨.identifier, "move", 3, 7⟩, ⟨.indefiniteArticle, "a", 8, 9⟩,
      ⟨.identifier, "box", 10, 13⟩, ⟨.comment, "(gently)", 14, 22⟩, ⟨.intoWord, "into", 23, 27⟩,
      ⟨.definiteArticle, "the", 28, 31⟩, ⟨.identifier, "cart", 32, 36⟩]
    let opening : Token := ⟨.toWord, "to", 0, 2⟩
    let colon : Token := ⟨.colon, ":", 36, 37⟩
    let box : Reference := .plain "box" ⟨8, 13⟩
    let cart : Reference := .plain "cart" ⟨28, 36⟩
    parseSentence {} (opening :: (H ++ [colon])) =
        .ok (.header ⟨["move (gently)"], [box], some cart, ⟨0, 36⟩⟩ none) ∧
      ¬EndsInPlace H ∧
      ∃ span, parseSentence {} H = .ok (.stmt (.invocation "move (gently)" [box] (some cart) span)) := by
  intro H opening colon box cart
  have hheader : parseSentence {} (opening :: (H ++ [colon])) =
      .ok (.header ⟨["move (gently)"], [box], some cart, ⟨0, 36⟩⟩ none) := by cbv
  have hplace : ¬EndsInPlace H := not_endsInPlace (by decide)
  obtain ⟨marker, parameters, result, span, hcall, hsame⟩ :=
    call_matches_label (by rfl) (by rfl) (by rfl) (by decide) hheader
  obtain ⟨rfl, rfl, rfl⟩ := hsame.2 hplace
  exact ⟨hheader, hplace, span, hcall⟩

/-- `to look in the box:` has no result, but `look in the box` has one. -/
theorem call_in_place :
    ¬∀ (settings : ReadingSettings) (H : List Token) (opening colon : Token) (label : Label)
        (body : Option (List Token)), opening.kind = .toWord → colon.kind = .colon →
      (H.filter Token.isSignificant).head?.map Token.kind = some .identifier →
      (∀ t ∈ H, t.kind ≠ .colon ∧ t.kind ≠ .arrow) →
      parseSentence settings (opening :: (H ++ [colon])) = .ok (.header label body) →
      ∃ span, parseSentence settings H =
        .ok (.stmt (.invocation label.marker label.parameters label.result span)) := by
  intro h
  let H : List Token := [⟨.identifier, "look", 3, 7⟩, ⟨.inWord, "in", 8, 10⟩,
    ⟨.definiteArticle, "the", 11, 14⟩, ⟨.identifier, "box", 15, 18⟩]
  let opening : Token := ⟨.toWord, "to", 0, 2⟩
  let colon : Token := ⟨.colon, ":", 18, 19⟩
  have hheader : parseSentence {} (opening :: (H ++ [colon])) =
      .ok (.header ⟨["look in the box"], [], none, ⟨0, 18⟩⟩ none) := by cbv
  have hcall : parseSentence {} H =
      .ok (.stmt (.invocation "look" [] (some (.plain "box" ⟨11, 18⟩)) ⟨3, 18⟩)) := by cbv
  obtain ⟨span, hspan⟩ := h {} H opening colon _ _ rfl rfl rfl (by decide) hheader
  rw [hcall] at hspan
  cases Stmt.invocation.inj (Sentence.stmt.inj (Except.ok.inj hspan)) with
  | intro _ hrest => cases hrest.2.1

end Prose.Grammar
