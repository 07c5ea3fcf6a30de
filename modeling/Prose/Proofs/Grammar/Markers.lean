import Prose.Grammar.Marker
import Prose.Proofs.Grammar.Wording
import Prose.Proofs.Token.Runs

/- How marker phrases are split. A parameter takes its article and its name, a result takes
   all that is left, and every other token is a word of the marker or only joins two
   parameters. What introduces a result differs between headers and calls, and this is the
   only place where it makes a difference: a phrase that ends in `in a|an|the <name>` has its
   result there as a call and says it with its marker as a header. -/
namespace Prose.Grammar

variable {openings : List Kind} {i : Nat} {afterParameter : Bool} {t article : Token}
  {ts taken rest next : List Token} {r : Reference} {m : MarkerPhrase}

/-! One token at a time. -/

theorem splitMarker_parameter (h : parameterAt (t :: rest) = some (r, next)) :
    splitMarker openings i afterParameter (t :: rest) =
      (splitMarker openings (i + (rest.length + 1 - next.length)) true next).map (.addParameter r) := by
  rw [splitMarker]
  split
  · next heq =>
    rw [h] at heq
    obtain ⟨rfl, rfl⟩ := Prod.mk.inj (Option.some.inj heq)
    rfl
  · next heq =>
    rw [h] at heq
    cases heq

theorem splitMarker_word (h : parameterAt (t :: rest) = none) :
    splitMarker openings i afterParameter (t :: rest) =
      if t.kind == .andWord && afterParameter && (parameterAt rest).isSome then
        splitMarker openings (i + 1) true rest
      else match if openings.contains t.kind then finalResult rest else none with
      | some (r, trailing) => .ok ⟨trailing.map Token.text, [], some r⟩
      | none =>
        if t.kind.isWordLike || t.kind == .comment then
          (splitMarker openings (i + 1) false rest).map (.addWord t.text)
        else .error i := by
  rw [splitMarker]
  split
  · next heq =>
    rw [h] at heq
    cases heq
  · rfl

theorem map_eq_ok {ε α β : Type} {x : Except ε α} {f : α → β} {b : β} (h : x.map f = .ok b) :
    ∃ a, x = .ok a ∧ f a = b := by
  cases x with
  | error e => cases h
  | ok a => exact ⟨a, rfl, Except.ok.inj h⟩

theorem map_eq_error {ε α β : Type} {x : Except ε α} {f : α → β} {e : ε} (h : x.map f = .error e) :
    x = .error e := by
  cases x with
  | error e' => exact congrArg Except.error (Except.error.inj h)
  | ok a => cases h

/-! Names behind articles. -/

/-- The name behind an article goes as far as there are words for it. -/
theorem nameAfter_eq_some_iff : nameAfter article rest = some (r, next) ↔
    ∃ name, rest = name ++ next ∧ name ≠ [] ∧ (∀ u ∈ name, u.kind = .identifier) ∧
      (∀ u ∈ next.head?, u.kind ≠ .identifier) ∧
      r = .plain (Token.joinTexts name) (.ofTokens (article :: name)) := by
  have hspan {name : List Token} {last : Token} (hlast : name.getLast? = some last) :
      Span.ofTokens (article :: name) = ⟨article.start, last.stop⟩ := by
    simp only [Span.ofTokens, List.head?_cons, List.getLast?_cons, hlast, Option.getD_some]
  constructor
  · intro h
    simp only [nameAfter] at h
    split at h
    · cases h
    · next last hlast =>
      obtain ⟨rfl, rfl⟩ := Prod.mk.inj (Option.some.inj h)
      refine ⟨_, List.takeWhile_append_dropWhile.symm, ?_, ?_, ?_, by rw [hspan hlast]⟩
      · intro hnil
        rw [hnil] at hlast
        cases hlast
      · exact fun u hu => eq_of_beq (List.all_eq_true.1 List.all_takeWhile u hu)
      · intro u hu hkind
        have hstop := List.head?_dropWhile_not (fun u : Token => u.kind == .identifier) rest
        rw [Option.mem_def.1 hu] at hstop
        exact absurd hkind (beq_eq_false_iff_ne.1 hstop)
  · rintro ⟨name, rfl, hne, hname, hnext, rfl⟩
    have hkinds : ∀ u ∈ name, (u.kind == .identifier) = true := fun u hu => beq_iff_eq.2 (hname u hu)
    have hstop : ∀ u ∈ next.head?, (u.kind == .identifier) = false :=
      fun u hu => beq_eq_false_iff_ne.2 (hnext u hu)
    have hlast := List.getLast?_eq_some_getLast hne
    simp only [nameAfter, Token.takeWhile_run hkinds hstop, Token.dropWhile_run hkinds hstop, hlast,
      hspan hlast]

theorem parameterAt_eq_some_iff : parameterAt ts = some (r, next) ↔
    ∃ article rest, ts = article :: rest ∧ article.kind ∈ [.indefiniteArticle, .someWord] ∧
      nameAfter article rest = some (r, next) := by
  cases ts with
  | nil => simp [parameterAt]
  | cons article rest => simp [parameterAt, and_assoc]

theorem resultAt_eq_some_iff : resultAt ts = some (r, next) ↔
    ∃ article rest, ts = article :: rest ∧ article.kind ∈ [.indefiniteArticle, .definiteArticle] ∧
      nameAfter article rest = some (r, next) := by
  cases ts with
  | nil => simp [resultAt]
  | cons article rest => simp [resultAt, and_assoc]

/-- What a parameter takes: an article and words of a name. -/
theorem parameterAt_eq_some (h : parameterAt ts = some (r, next)) :
    ∃ taken, ts = taken ++ next ∧
      ∀ u ∈ taken, u.kind ∈ [.indefiniteArticle, .someWord, .identifier] := by
  obtain ⟨article, rest, rfl, harticle, hname⟩ := parameterAt_eq_some_iff.1 h
  obtain ⟨name, rfl, -, hname, -, -⟩ := nameAfter_eq_some_iff.1 hname
  refine ⟨article :: name, rfl, List.forall_mem_cons.2 ⟨?_, fun u hu => ?_⟩⟩
  · simp only [List.mem_cons, List.not_mem_nil, or_false] at harticle
    rcases harticle with h | h <;> simp [h]
  · simp [hname u hu]

/-- `a|an|the <name>` with nothing but comments behind it. -/
def NamesResult (ts : List Token) : Prop :=
  ∃ article name comments, ts = article :: (name ++ comments) ∧
    article.kind ∈ [.indefiniteArticle, .definiteArticle] ∧ name ≠ [] ∧
      (∀ t ∈ name, t.kind = .identifier) ∧ ∀ t ∈ comments, t.kind = .comment

theorem NamesResult.mem_kinds (h : NamesResult ts) :
    ∀ t ∈ ts, t.kind ∈ [.indefiniteArticle, .definiteArticle, .identifier, .comment] := by
  obtain ⟨article, name, comments, rfl, harticle, -, hname, hcomments⟩ := h
  rw [List.forall_mem_cons, List.forall_mem_append]
  refine ⟨?_, fun t ht => ?_, fun t ht => ?_⟩
  · simp only [List.mem_cons, List.not_mem_nil, or_false] at harticle
    rcases harticle with h | h <;> simp [h]
  · simp [hname t ht]
  · simp [hcomments t ht]

theorem finalResult_eq_some_iff : finalResult ts = some (r, next) ↔
    resultAt ts = some (r, next) ∧ ∀ t ∈ next, t.kind = .comment := by
  rw [finalResult, Option.filter_eq_some_iff, List.all_eq_true]
  exact and_congr_right fun _ => forall₂_congr fun _ _ => beq_iff_eq

/-- That is where a result is found. -/
theorem isSome_finalResult_iff : (finalResult ts).isSome ↔ NamesResult ts := by
  rw [Option.isSome_iff_exists, Prod.exists]
  constructor
  · rintro ⟨r, comments, h⟩
    obtain ⟨hresult, hcomments⟩ := finalResult_eq_some_iff.1 h
    obtain ⟨article, rest, rfl, harticle, hname⟩ := resultAt_eq_some_iff.1 hresult
    obtain ⟨name, rfl, hne, hname, -, -⟩ := nameAfter_eq_some_iff.1 hname
    exact ⟨article, name, comments, rfl, harticle, hne, hname, hcomments⟩
  · rintro ⟨article, name, comments, rfl, harticle, hne, hname, hcomments⟩
    have hstop : ∀ t ∈ comments.head?, t.kind ≠ .identifier := by
      intro t ht
      rw [hcomments t (List.mem_of_mem_head? ht)]
      decide
    have hname : nameAfter article (name ++ comments) = _ :=
      nameAfter_eq_some_iff.2 ⟨name, rfl, hne, hname, hstop, rfl⟩
    exact ⟨_, comments, finalResult_eq_some_iff.2
      ⟨resultAt_eq_some_iff.2 ⟨article, _, rfl, harticle, hname⟩, hcomments⟩⟩

theorem finalResult_eq_none (h : ¬NamesResult ts) : finalResult ts = none :=
  Option.not_isSome_iff_eq_none.1 fun h' => h (isSome_finalResult_iff.1 h')

/-- A result that was found behind a token. -/
theorem found_eq_some {found : Reference × List Token}
    (h : (if openings.contains t.kind then finalResult rest else none) = some found) :
    t.kind ∈ openings ∧ NamesResult rest := by
  split at h
  · next ht => exact ⟨List.contains_iff_mem.1 ht, isSome_finalResult_iff.1 (by rw [h]; rfl)⟩
  · cases h

/-! Results. -/

/-- Without a word that introduces it there is no result. -/
theorem result_eq_none (hts : ∀ t ∈ ts, t.kind ∉ openings)
    (h : splitMarker openings i afterParameter ts = .ok m) : m.result = none := by
  fun_induction splitMarker openings i afterParameter ts generalizing m with
  | case1 =>
    obtain rfl := Except.ok.inj h
    rfl
  | case2 i afterParameter t rest r next hparameter ih =>
    obtain ⟨taken, htaken, -⟩ := parameterAt_eq_some hparameter
    rw [htaken, List.forall_mem_append] at hts
    obtain ⟨later, hlater, rfl⟩ := map_eq_ok h
    show later.result = none
    exact ih hts.2 hlater
  | case3 i afterParameter t rest _ _ ih => exact ih (List.forall_mem_cons.1 hts).2 h
  | case4 i afterParameter t rest _ _ r trailing hresult =>
    rw [dite_eq_ite] at hresult
    exact absurd (found_eq_some hresult).1 (hts t List.mem_cons_self)
  | case5 i afterParameter t rest _ _ _ _ ih =>
    obtain ⟨later, hlater, rfl⟩ := map_eq_ok h
    show later.result = none
    exact ih (List.forall_mem_cons.1 hts).2 hlater
  | case6 => cases h

/-- A word of the marker in front stays one. -/
theorem words_ne_nil (ht : t.kind = .identifier) (hopenings : .identifier ∉ openings)
    (h : splitMarker openings i afterParameter (t :: rest) = .ok m) : m.words ≠ [] := by
  have hparameter : parameterAt (t :: rest) = none := by
    rw [parameterAt, ht]
    rfl
  have hno : openings.contains Kind.identifier = false :=
    Bool.eq_false_iff.2 fun hc => hopenings (List.contains_iff_mem.1 hc)
  have hand : (Kind.identifier == .andWord && afterParameter && (parameterAt rest).isSome) = false := rfl
  rw [splitMarker_word hparameter, ht, hand, hno] at h
  obtain ⟨later, -, rfl⟩ := map_eq_ok h
  exact List.cons_ne_nil _ _

/-! What a phrase mentions. -/

/-- The parameters of a phrase and its result. -/
def MarkerPhrase.references (m : MarkerPhrase) : List Reference := m.parameters ++ m.result.toList

/-- A use of a name behind an article: some of the tokens, which it covers. -/
inductive Mentioned (ts : List Token) : Reference → Prop where
  | intro {article : Token} {name : String} {us : List Token} (hsub : (article :: us).Sublist ts)
      (hname : Words name us) : Mentioned ts (.plain name (.ofTokens (article :: us)))

theorem Mentioned.mono (h : Mentioned taken r) (hsub : taken.Sublist ts) : Mentioned ts r := by
  cases h with
  | intro htaken hname => exact .intro (htaken.trans hsub) hname

theorem mentioned_nameAfter (h : nameAfter article rest = some (r, next)) :
    Mentioned (article :: rest) r := by
  obtain ⟨name, rfl, hne, hname, -, rfl⟩ := nameAfter_eq_some_iff.1 h
  exact .intro ((List.sublist_append_left name next).cons_cons article) ⟨hne, hname, rfl⟩

theorem mentioned_parameterAt (h : parameterAt ts = some (r, next)) : Mentioned ts r := by
  obtain ⟨article, rest, rfl, -, hname⟩ := parameterAt_eq_some_iff.1 h
  exact mentioned_nameAfter hname

theorem mentioned_finalResult (h : finalResult ts = some (r, next)) : Mentioned ts r := by
  obtain ⟨article, rest, rfl, -, hname⟩ := resultAt_eq_some_iff.1 (finalResult_eq_some_iff.1 h).1
  exact mentioned_nameAfter hname

/-- The parameters of a phrase and its result are uses of names in it. -/
theorem mentioned_splitMarker (h : splitMarker openings i afterParameter ts = .ok m) :
    ∀ r ∈ m.references, Mentioned ts r := by
  fun_induction splitMarker openings i afterParameter ts generalizing m with
  | case1 =>
    obtain rfl := Except.ok.inj h
    exact nofun
  | case2 i afterParameter t rest r next hparameter ih =>
    obtain ⟨taken, htaken, -⟩ := parameterAt_eq_some hparameter
    obtain ⟨later, hlater, rfl⟩ := map_eq_ok h
    refine List.forall_mem_cons.2 ⟨mentioned_parameterAt hparameter, fun r' hr' => ?_⟩
    rw [htaken]
    exact (ih hlater r' hr').mono (List.sublist_append_right ..)
  | case3 i afterParameter t rest hparameter hand ih =>
    exact fun r hr => (ih h r hr).mono (List.sublist_cons_self ..)
  | case4 i afterParameter t rest hparameter hand r trailing hresult =>
    obtain rfl := Except.ok.inj h
    split at hresult
    · refine List.forall_mem_singleton.2 ?_
      exact (mentioned_finalResult hresult).mono (List.sublist_cons_self ..)
    · cases hresult
  | case5 i afterParameter t rest hparameter hand hresult hword ih =>
    obtain ⟨later, hlater, rfl⟩ := map_eq_ok h
    exact fun r hr => (ih hlater r hr).mono (List.sublist_cons_self ..)
  | case6 => cases h

/-! Which phrases can be split. -/

/-- What a marker phrase may be made of. -/
def CanMark (t : Token) : Prop := t.kind.isWordLike ∨ t.kind = .comment

theorem exists_map_ok {ε α β : Type} {x : Except ε α} (f : α → β) :
    (∃ b, x.map f = .ok b) ↔ ∃ a, x = .ok a := by
  constructor
  · intro h
    obtain ⟨b, hb⟩ := h
    obtain ⟨a, ha, -⟩ := map_eq_ok hb
    exact ⟨a, ha⟩
  · intro h
    obtain ⟨a, rfl⟩ := h
    exact ⟨f a, rfl⟩

/-- A phrase can be split exactly if all its tokens can be part of one, whatever introduces
    its result. -/
theorem splitMarker_ok_iff (hopenings : ∀ k ∈ openings, k.isWordLike) :
    (∃ m, splitMarker openings i afterParameter ts = .ok m) ↔ ∀ t ∈ ts, CanMark t := by
  fun_induction splitMarker openings i afterParameter ts with
  | case1 => exact iff_of_true ⟨_, rfl⟩ nofun
  | case2 i afterParameter t rest r next hparameter ih =>
    obtain ⟨taken, htaken, hkinds⟩ := parameterAt_eq_some hparameter
    have hall : ∀ k ∈ [Kind.indefiniteArticle, .someWord, .identifier], k.isWordLike := by decide
    rw [exists_map_ok, ih, htaken, List.forall_mem_append]
    exact (and_iff_right fun u hu => .inl (hall _ (hkinds u hu))).symm
  | case3 i afterParameter t rest hparameter hand ih =>
    have ht : t.kind = .andWord := by
      simp only [Bool.and_eq_true, beq_iff_eq] at hand
      exact hand.1.1
    rw [ih, List.forall_mem_cons]
    exact (and_iff_right (.inl (by rw [ht]; rfl))).symm
  | case4 i afterParameter t rest hparameter hand r trailing hresult =>
    rw [dite_eq_ite] at hresult
    obtain ⟨ht, hrest⟩ := found_eq_some hresult
    have hall : ∀ k ∈ [Kind.indefiniteArticle, .definiteArticle, .identifier, .comment],
        k.isWordLike ∨ k = .comment := by decide
    exact iff_of_true ⟨_, rfl⟩
      (List.forall_mem_cons.2 ⟨.inl (hopenings _ ht), fun u hu => hall _ (hrest.mem_kinds u hu)⟩)
  | case5 i afterParameter t rest hparameter hand hresult hword ih =>
    rw [exists_map_ok, ih, List.forall_mem_cons]
    exact (and_iff_right (by simpa [CanMark] using hword)).symm
  | case6 i afterParameter t rest hparameter hand hresult hword =>
    refine iff_of_false nofun fun h => hword ?_
    simpa [CanMark] using h t List.mem_cons_self

/-! Headers and calls. -/

/-- Tokens that end in `in a|an|the <name>`, comments behind it apart. -/
def EndsInPlace (ts : List Token) : Prop :=
  ∃ preposition rest, preposition :: rest <:+ ts ∧ preposition.kind = .inWord ∧ NamesResult rest

theorem EndsInPlace.append (h : EndsInPlace rest) : EndsInPlace (taken ++ rest) := by
  obtain ⟨preposition, place, hsuffix, hin⟩ := h
  exact ⟨preposition, place, hsuffix.trans (List.suffix_append taken rest), hin⟩

theorem EndsInPlace.cons (h : EndsInPlace rest) : EndsInPlace (t :: rest) := by
  show EndsInPlace ([t] ++ rest)
  exact h.append

theorem endsInPlace_cons (ht : t.kind = .inWord ∧ NamesResult rest) : EndsInPlace (t :: rest) :=
  ⟨t, rest, List.suffix_rfl, ht⟩

/-- What has no `in` does not reach into the end. -/
theorem EndsInPlace.of_append (htaken : ∀ t ∈ taken, t.kind ≠ .inWord)
    (h : EndsInPlace (taken ++ rest)) : EndsInPlace rest := by
  induction taken with
  | nil => exact h
  | cons t taken ih =>
    rw [List.forall_mem_cons] at htaken
    obtain ⟨preposition, place, hsuffix, hin, hplace⟩ := h
    rcases List.suffix_cons_iff.1 hsuffix with hwhole | hlater
    · obtain ⟨rfl, -⟩ := List.cons.inj hwhole
      exact absurd hin htaken.1
    · exact ih htaken.2 ⟨preposition, place, hlater, hin, hplace⟩

/-- Nor does an end reach over a word that does not start it. -/
theorem EndsInPlace.of_cons (ht : ¬(t.kind = .inWord ∧ NamesResult rest))
    (h : EndsInPlace (t :: rest)) : EndsInPlace rest := by
  obtain ⟨preposition, place, hsuffix, hin, hplace⟩ := h
  rcases List.suffix_cons_iff.1 hsuffix with hwhole | hlater
  · obtain ⟨rfl, rfl⟩ := List.cons.inj hwhole
    exact absurd ⟨hin, hplace⟩ ht
  · exact ⟨preposition, place, hlater, hin, hplace⟩

theorem not_endsInPlace (hts : ∀ t ∈ ts, t.kind ≠ .inWord) : ¬EndsInPlace ts := by
  intro h
  obtain ⟨preposition, place, hsuffix, hin, -⟩ := h
  exact hts preposition (hsuffix.subset List.mem_cons_self) hin

/-- No word that introduces a result is part of one. -/
theorem NamesResult.not_introduced {k : Kind} (h : NamesResult ts) (hk : k ∈ [.intoWord, .inWord]) :
    ∀ u ∈ ts, u.kind ≠ k := by
  intro u hu hkind
  have hno : ∀ k ∈ [Kind.intoWord, .inWord],
      k ∉ [.indefiniteArticle, .definiteArticle, .identifier, .comment] := by decide
  exact hno k hk (hkind ▸ h.mem_kinds u hu)

theorem parameterAt_not_in (h : parameterAt (t :: rest) = some (r, next)) :
    ∃ taken, t :: rest = taken ++ next ∧ ∀ u ∈ taken, u.kind ≠ .inWord := by
  obtain ⟨taken, htaken, hkinds⟩ := parameterAt_eq_some h
  refine ⟨taken, htaken, fun u hu hin => ?_⟩
  have hkind := hkinds u hu
  rw [hin] at hkind
  exact absurd hkind (by decide)

/-- A word that does not introduce a place introduces the same in both. -/
theorem found_call (h : ¬(t.kind = .inWord ∧ NamesResult rest)) :
    (if [Kind.intoWord, .inWord].contains t.kind then finalResult rest else none) =
      if [Kind.intoWord].contains t.kind then finalResult rest else none := by
  by_cases hin : t.kind = .inWord
  · rw [finalResult_eq_none fun hplace => h ⟨hin, hplace⟩, ite_self, ite_self]
  · by_cases hinto : t.kind = .intoWord
    · rw [hinto]
      rfl
    · rw [if_neg (by simp [hin, hinto]), if_neg (by simp [hinto])]

/-- A call that does not end so is split like a header. -/
theorem splitMarker_call (h : ¬EndsInPlace ts) :
    splitMarker [.intoWord, .inWord] i afterParameter ts =
      splitMarker [.intoWord] i afterParameter ts := by
  fun_induction splitMarker [.intoWord] i afterParameter ts with
  | case1 => rw [splitMarker]
  | case2 i afterParameter t rest r next hparameter ih =>
    obtain ⟨taken, htaken, -⟩ := parameterAt_not_in hparameter
    rw [splitMarker_parameter hparameter, ih fun h' => h (htaken ▸ h'.append)]
  | case3 i afterParameter t rest hparameter hand ih =>
    rw [splitMarker_word hparameter, if_pos hand, ih fun h' => h h'.cons]
  | case4 i afterParameter t rest hparameter hand r trailing hresult =>
    rw [dite_eq_ite, ← found_call fun h' => h (endsInPlace_cons h')] at hresult
    rw [splitMarker_word hparameter, if_neg hand, hresult]
  | case5 i afterParameter t rest hparameter hand hresult hword ih =>
    rw [dite_eq_ite, ← found_call fun h' => h (endsInPlace_cons h')] at hresult
    rw [splitMarker_word hparameter, if_neg hand, hresult]
    simp only [hword, if_true, ih fun h' => h h'.cons]
  | case6 i afterParameter t rest hparameter hand hresult hword =>
    rw [dite_eq_ite, ← found_call fun h' => h (endsInPlace_cons h')] at hresult
    rw [splitMarker_word hparameter, if_neg hand, hresult]
    simp only [hword, Bool.false_eq_true, if_false]

/-- A call that ends so has its result there, and a header of the same words has none. -/
theorem splitMarker_place (h : EndsInPlace ts)
    (hm : splitMarker [.intoWord] i afterParameter ts = .ok m) :
    m.result = none ∧ ∃ call, splitMarker [.intoWord, .inWord] i afterParameter ts = .ok call ∧
      call.result.isSome := by
  fun_induction splitMarker [.intoWord] i afterParameter ts generalizing m with
  | case1 => exact absurd h (not_endsInPlace nofun)
  | case2 i afterParameter t rest r next hparameter ih =>
    obtain ⟨taken, htaken, hno⟩ := parameterAt_not_in hparameter
    obtain ⟨later, hlater, rfl⟩ := map_eq_ok hm
    obtain ⟨hnone, call, hcall, hsome⟩ := ih ((htaken ▸ h).of_append hno) hlater
    refine ⟨hnone, call.addParameter r, ?_, hsome⟩
    rw [splitMarker_parameter hparameter, hcall]
    rfl
  | case3 i afterParameter t rest hparameter hand ih =>
    have ht : t.kind = .andWord := by
      simp only [Bool.and_eq_true, beq_iff_eq] at hand
      exact hand.1.1
    have hlater : EndsInPlace rest := h.of_cons fun h' => by
      rw [ht] at h'
      exact absurd h'.1 (by decide)
    obtain ⟨hnone, call, hcall, hsome⟩ := ih hlater hm
    exact ⟨hnone, call, by rw [splitMarker_word hparameter, if_pos hand, hcall], hsome⟩
  | case4 i afterParameter t rest hparameter hand r trailing hresult =>
    -- behind an `into` that introduces the result there is no `in`
    rw [dite_eq_ite] at hresult
    obtain ⟨hinto, hrest⟩ := found_eq_some hresult
    refine absurd h (not_endsInPlace (List.forall_mem_cons.2 ⟨?_, hrest.not_introduced (by decide)⟩))
    rw [List.mem_singleton.1 hinto]
    decide
  | case5 i afterParameter t rest hparameter hand hresult hword ih =>
    obtain ⟨later, hlater, rfl⟩ := map_eq_ok hm
    by_cases hplace : t.kind = .inWord ∧ NamesResult rest
    · -- here the call ends, and nothing behind it introduces a result for the header
      have hnone : later.result = none := by
        refine result_eq_none (fun u hu hmem => ?_) hlater
        exact hplace.2.not_introduced (by decide) u hu (List.mem_singleton.1 hmem)
      obtain ⟨⟨r, trailing⟩, hfinal⟩ := Option.isSome_iff_exists.1 (isSome_finalResult_iff.2 hplace.2)
      refine ⟨hnone, ⟨trailing.map Token.text, [], some r⟩, ?_, rfl⟩
      rw [splitMarker_word hparameter, if_neg hand, hplace.1, hfinal]
      rfl
    · obtain ⟨hnone, call, hcall, hsome⟩ := ih (h.of_cons hplace) hlater
      refine ⟨hnone, call.addWord t.text, ?_, hsome⟩
      rw [dite_eq_ite, ← found_call hplace] at hresult
      rw [splitMarker_word hparameter, if_neg hand, hresult]
      simp only [hword, if_true, hcall]
      rfl
  | case6 => cases hm

end Prose.Grammar
