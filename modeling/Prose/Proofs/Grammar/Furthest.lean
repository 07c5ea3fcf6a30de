import Prose.Proofs.Grammar.Composed
import Prose.Proofs.Grammar.Reports

/- Furthest failures. Where nothing can be read, the failure is placed at the furthest token at
   which any rule of the run reported something, and it lists what was reported there. A kept
   result is taken without the reports of its own run, so it has to be known that every kept
   failure was reported when it was kept. -/
namespace Prose

namespace Grammar

open Rule

variable {α β : Type} {p : Phrase} {loud : Bool} {x : Rule α} {s t : Progress}

/-! What every run keeps to. -/

/-- A kept result stops inside of the phrase, and something was noted before a failure is kept. -/
def Result.Inside (p : Phrase) (s : Progress) : Result α → Prop
  | none => s.expected ≠ []
  | some (_, stop) => stop ≤ p.size

/-- The cursor, the notes and the kept results stand inside of the phrase, and before anything
    is noted there is no furthest index yet. -/
structure Phrase.Inside (p : Phrase) (s : Progress) : Prop where
  pos : s.pos ≤ p.size
  furthest : s.furthest ≤ p.size
  expected : s.expected = [] → s.furthest = 0
  expressions : ∀ e ∈ s.expressions, e.2.Inside p s
  references : ∀ e ∈ s.references, e.2.Inside p s

/-- What a run leaves behind: all of it stays inside of the phrase, what was expected does not get
    lost, and a loud rule does not fail before anything is noted. -/
structure Rule.Ends (p : Phrase) (loud : Bool) (s : Progress) (r : Option α × Progress) : Prop where
  inside : p.Inside r.2
  expected : s.expected ≠ [] → r.2.expected ≠ []
  loud : loud = true → r.1 = none → r.2.expected ≠ []

theorem Result.Inside.mono {r : Result α} (h : r.Inside p s)
    (hexpected : s.expected ≠ [] → t.expected ≠ []) : r.Inside p t := by
  rcases r with _ | ⟨a, stop⟩
  · exact hexpected h
  · exact h

namespace Phrase.Inside

theorem start : p.Inside {} := ⟨Nat.zero_le _, Nat.zero_le _, fun _ => rfl, nofun, nofun⟩

theorem moved (h : p.Inside s) {i : Nat} (hi : i ≤ p.size) : p.Inside (s.moved i) :=
  ⟨hi, h.furthest, h.expected, h.expressions, h.references⟩

/-- Behind a note something is expected. -/
theorem expected_miss (h : p.Inside s) (what : String) : (s.miss what).expected ≠ [] := by
  rw [Progress.miss_eq_note]
  simp only [Progress.note, Progress.expectedAfter]
  split
  · exact List.cons_ne_nil _ _
  · next hlt =>
    split
    · exact List.append_ne_nil_of_right_ne_nil _ (List.cons_ne_nil _ _)
    · next hold =>
      intro hnil
      have hzero := h.expected hnil
      refine hold ⟨by omega, ?_⟩
      rw [hnil]
      exact List.not_mem_nil

theorem miss (h : p.Inside s) (what : String) : p.Inside (s.miss what) := by
  have hexpected := h.expected_miss what
  rw [Progress.miss_eq_note] at hexpected ⊢
  refine ⟨h.pos, Nat.max_le.2 ⟨h.furthest, h.pos⟩, fun hnil => absurd hnil hexpected, ?_, ?_⟩
  · exact fun e he => (h.expressions e he).mono fun _ => hexpected
  · exact fun e he => (h.references e he).mono fun _ => hexpected

theorem keepExpression (h : p.Inside s) {k : Kept} {i : Nat} {r : Result Expr} (hr : r.Inside p s) :
    p.Inside { s with expressions := ((k, i), r) :: s.expressions } :=
  ⟨h.pos, h.furthest, h.expected, List.forall_mem_cons.2 ⟨hr, h.expressions⟩, h.references⟩

theorem keepReference (h : p.Inside s) {room i : Nat} {r : Result Reference} (hr : r.Inside p s) :
    p.Inside { s with references := ((i, room), r) :: s.references } :=
  ⟨h.pos, h.furthest, h.expected, h.expressions, List.forall_mem_cons.2 ⟨hr, h.references⟩⟩

end Phrase.Inside

namespace Rule.Ends

theorem attempt (hs : p.Inside s) (h : Ends p loud s (x s)) : Ends p loud s (Rule.attempt x s) := by
  rcases hx : x s with ⟨_ | a, t⟩ <;> rw [hx] at h
  · rw [attempt_none hx]
    exact ⟨h.inside.moved hs.pos, h.expected, h.loud⟩
  · rw [attempt_some hx]
    exact h

/-- What comes behind a run starts where it ended. -/
theorem trans {r : Option α × Progress} {q : Option β × Progress} {quiet : Bool}
    (h : Ends p quiet s r) (hq : Ends p loud r.2 q) : Ends p loud s q :=
  ⟨hq.inside, fun hs => hq.expected (h.expected hs), hq.loud⟩

theorem restore (hs : p.Inside s) {r : Result α} (hr : r.Inside p s) :
    Ends p loud s (Phrase.restore r s) := by
  rcases r with _ | ⟨a, stop⟩
  · exact ⟨hs, id, fun _ _ => hr⟩
  · exact ⟨hs.moved hr, id, fun _ h => absurd h (Option.some_ne_none a)⟩

theorem of_loud {r : Option α × Progress} (h : Ends p true s r) : Ends p loud s r :=
  ⟨h.inside, h.expected, fun _ => h.loud rfl⟩

/-- The result of a loud rule can be kept. -/
theorem result {r : Option α × Progress} (h : Ends p true s r) :
    Result.Inside p r.2 (r.1.map fun a => (a, r.2.pos)) := by
  rcases hr : r.1 with _ | a
  · exact h.loud rfl hr
  · exact h.inside.pos

end Rule.Ends

/-- Every run of a composed rule keeps to this. -/
theorem Composed.ends (h : Composed p loud x) (hs : p.Inside s) : Ends p loud s (x s) := by
  induction h generalizing s with
  | look hf hg =>
    refine ⟨hs.moved (hg _ hs.pos), id, fun hloud hnone => ?_⟩
    exact absurd hnone (Option.isSome_iff_ne_none.1 (hf hloud s.pos))
  | fail what => exact ⟨hs.miss what, fun _ => hs.expected_miss what, fun _ _ => hs.expected_miss what⟩
  | position _ ih => exact ih s.pos hs.pos hs
  | @bind _ _ _ x f _ _ ihx ihf =>
    have hends := ihx hs
    rcases hx : x s with ⟨_ | a, t⟩ <;> rw [hx] at hends
    · rw [bind_none hx]
      exact ⟨hends.inside, hends.expected, fun hloud _ => hends.loud hloud rfl⟩
    · rw [bind_some hx]
      exact hends.trans (ihf a hends.inside)
  | attempt _ ih => exact (ih hs).attempt hs
  | outcome _ ih =>
    rw [outcome_eq]
    exact ⟨(ih hs).inside, (ih hs).expected, fun _ h => absurd h (Option.some_ne_none _)⟩
  | nothing => exact ⟨hs, id, nofun⟩
  | @first _ _ x xs _ _ ihx ihxs =>
    have hends := (ihx hs).attempt hs
    rcases hx : Rule.attempt x s with ⟨_ | a, t⟩ <;> rw [hx] at hends
    · rw [firstOf_cons_none hx]
      have hlater := ihxs hends.inside
      -- what the first rule noted is there when the last one has failed
      refine ⟨hlater.inside, fun h => hlater.expected (hends.expected h), fun hloud _ => ?_⟩
      exact hlater.expected (hends.loud hloud rfl)
    · rw [firstOf_cons_some hx]
      exact hends
  | @later _ _ x xs _ _ ihx ihxs =>
    have hends := (ihx hs).attempt hs
    rcases hx : Rule.attempt x s with ⟨_ | a, t⟩ <;> rw [hx] at hends
    · rw [firstOf_cons_none hx]
      exact hends.trans (ihxs hends.inside)
    · rw [firstOf_cons_some hx]
      exact ⟨hends.inside, hends.expected, fun _ h => absurd h (Option.some_ne_none a)⟩
  | @keptExpression _ k x _ ih =>
    have hends := (ih hs).attempt hs
    rw [Phrase.keptExpression]
    split
    · split
      · next r hr => exact .restore hs (hs.expressions _ (mem_of_lookup hr))
      · rw [keep_eq]
        exact ⟨hends.inside.keepExpression hends.result, hends.expected, fun _ => hends.loud rfl⟩
    · exact hends.of_loud
  | @keptReference _ room x _ ih =>
    have hends := (ih hs).attempt hs
    rw [Phrase.keptReference]
    split
    · split
      · next r hr => exact .restore hs (hs.references _ (mem_of_lookup hr))
      · rw [keep_eq]
        exact ⟨hends.inside.keepReference hends.result, hends.expected, fun _ => hends.loud rfl⟩
    · exact hends.of_loud

/-- Every run of a composed rule makes some notes. -/
theorem Composed.exists_reports (h : Composed p loud x) (hs : p.Inside s) : ∃ ns, Reports p x s ns := by
  induction h generalizing s with
  | look => exact ⟨_, .look⟩
  | fail => exact ⟨_, .fail⟩
  | position _ ih =>
    obtain ⟨ns, hns⟩ := ih s.pos hs.pos hs
    exact ⟨_, .goesOn (.look (f := some) (g := id)) rfl hns⟩
  | @bind _ _ _ x f hx _ ihx ihf =>
    obtain ⟨ns, hns⟩ := ihx hs
    rcases hxs : x s with ⟨_ | a, t⟩
    · exact ⟨_, .stops hns hxs⟩
    · obtain ⟨ms, hms⟩ := ihf a (hxs ▸ (hx.ends hs).inside)
      exact ⟨_, .goesOn hns hxs hms⟩
  | attempt _ ih =>
    obtain ⟨ns, hns⟩ := ih hs
    exact ⟨_, .attempt hns⟩
  | outcome _ ih =>
    obtain ⟨ns, hns⟩ := ih hs
    exact ⟨_, .outcome hns⟩
  | nothing => exact ⟨_, .nothing⟩
  | @first _ _ x xs hx _ ihx ihxs | @later _ _ x xs hx _ ihx ihxs =>
    obtain ⟨ns, hns⟩ := ihx hs
    rcases hxs : Rule.attempt x s with ⟨_ | a, t⟩
    · obtain ⟨ms, hms⟩ := ihxs (hxs ▸ ((hx.ends hs).attempt hs).inside)
      exact ⟨_, .later hns hxs hms⟩
    · exact ⟨_, .first hns hxs⟩
  | @keptExpression _ k x _ ih =>
    obtain ⟨ns, hns⟩ := ih hs
    by_cases hnew : p.memoize = true → s.expressions.lookup (k, s.pos) = none
    · exact ⟨_, .newExpression hnew hns⟩
    · obtain ⟨hmemoize, hold⟩ := Classical.not_imp.1 hnew
      obtain ⟨r, hr⟩ := Option.ne_none_iff_exists'.1 hold
      exact ⟨_, .keptExpression hmemoize hr⟩
  | @keptReference _ room x _ ih =>
    obtain ⟨ns, hns⟩ := ih hs
    by_cases hnew : p.memoize = true → s.references.lookup (s.pos, room) = none
    · exact ⟨_, .newReference hnew hns⟩
    · obtain ⟨hmemoize, hold⟩ := Classical.not_imp.1 hnew
      obtain ⟨r, hr⟩ := Option.ne_none_iff_exists'.1 hold
      exact ⟨_, .keptReference hmemoize hr⟩

/-! The failure of a reading. -/

/-- A failure tells of the furthest of some notes: it is placed at the token of the highest index
    that was noted, or at the closing one, and lists what was expected there, each thing once
    and in the order of the notes. -/
structure TellsFurthest (p : Phrase) (ns : List Note) (i : Nat) (e : ParseFailure) : Prop where
  le_size : i ≤ p.size
  le : ∀ n ∈ ns, n.1 ≤ i
  mem : ∃ n ∈ ns, n.1 = i
  offset : e.offset = (p.tokenAt i).start
  found : e.found? = some (p.tokenAt i).text
  expected : e.expected = ((ns.filter fun n => n.1 = i).map Prod.snd).eraseDups
  ne_nil : e.expected ≠ []
  nodup : e.expected.Nodup

theorem nodup_eraseDups (ws : List String) : ws.eraseDups.Nodup := by
  induction hn : ws.length using Nat.strong_induction_on generalizing ws with
  | _ n ih =>
    cases ws with
    | nil => exact List.nodup_nil
    | cons w ws =>
      have hlength := List.length_filter_le (fun v => !v == w) ws
      rw [List.length_cons] at hn
      rw [List.eraseDups_cons, List.nodup_cons]
      refine ⟨fun hmem => ?_, ih _ (by omega) _ rfl⟩
      have hother := (List.mem_filter.1 (List.mem_eraseDups.1 hmem)).2
      simp at hother

/-- A loud rule that fails from the start of a phrase tells of the furthest note of its run. -/
theorem tellsFurthest_read (hx : Composed p true x) {ns : List Note} (hns : Reports p x {} ns)
    {e : ParseFailure} (h : p.read x = .error e) : ∃ i, TellsFurthest p ns i e := by
  have hends := hx.ends (s := {}) .start
  have hnoted := hns.noted
  obtain ⟨i, hle, hmem, hi⟩ := noted_start ns
  rw [hi] at hnoted
  rw [Phrase.read] at h
  rcases hrun : x {} with ⟨_ | a, t⟩ <;> rw [hrun] at h hends hnoted
  · obtain rfl := Except.error.inj h
    obtain ⟨rfl, hexpected⟩ := Prod.mk.inj hnoted
    have hne : t.expected ≠ [] := hends.loud rfl rfl
    have hnsNe : ns ≠ [] := by
      rintro rfl
      exact hne hexpected
    refine ⟨t.furthest, hends.inside.furthest, hle, hmem hnsNe, rfl, rfl, hexpected, hne, ?_⟩
    show t.expected.Nodup
    rw [hexpected]
    exact nodup_eraseDups _
  · cases h

end Grammar

open Grammar

/-- Failures are placed at the furthest report. A sentence or a node is read by one rule, and the
    run of that rule makes some reports, one after the other. Where the reading fails, the
    failure is placed at the token of the highest index at which anything was reported, or at
    the closing one, and lists exactly what was reported there: at least one thing, none twice,
    in the order of the first reports. Only where a header stands alone is a node refused for
    another reason. -/
theorem failure_tellsFurthest (settings : ReadingSettings) (tokens : List Token) :
    let kept := tokens.filter Token.isSignificant
    let phrase := phraseOf settings.memoize settings.maxDepth
      (branchWithin settings.memoize settings.maxDepth)
    (let p := phrase true kept
     (∃ ns, Reports p p.sentence {} ns) ∧
      ∀ ns e, Reports p p.sentence {} ns → parseSentence settings tokens = .error e →
        ∃ i, TellsFurthest p ns i e) ∧
    let p := phrase false kept
    let x := p.bareOrSentence (entryOf? kept)
    (∃ ns, Reports p x {} ns) ∧
      ∀ ns e, Reports p x {} ns → parseNode settings tokens = .error e →
        (∃ i, TellsFurthest p ns i e) ∨ ∃ offset, e = .labelAlone offset := by
  intro kept phrase
  have hsentence : Composed (phrase true kept) true (phrase true kept).sentence := .sentence
  have hnode : Composed (phrase false kept) true
    ((phrase false kept).bareOrSentence (entryOf? kept)) := .bareOrSentence _
  refine ⟨⟨hsentence.exists_reports .start, fun ns e hns h => ?_⟩,
    hnode.exists_reports .start, fun ns e hns h => ?_⟩
  · rw [parseSentence, sentenceWithin_eq] at h
    exact tellsFurthest_read hsentence hns h
  · simp only [parseNode] at h
    split at h
    · next e' hread =>
      obtain rfl := Except.error.inj h
      exact .inl (tellsFurthest_read hnode hns hread)
    · cases h
    · cases h
    · exact .inr ⟨_, (Except.error.inj h).symm⟩

/-- `put 1`, where a comparison could go on and a target is missing. What `put` was tried as
    before is further back. -/
theorem failure_tellsFurthest_put :
    let tokens : List Token := [⟨.putWord, "put", 0, 3⟩, ⟨.intLiteral, "1", 4, 5⟩]
    let p := phraseOf true 64 (branchWithin true 64) true tokens
    let e : ParseFailure := .mismatch ⟨.stop, "", 5, 5⟩ ["comparison", "'into' or 'in'"]
    parseSentence {} tokens = .error e ∧
      ∃ ns i, Reports p p.sentence {} ns ∧ TellsFurthest p ns i e := by
  intro tokens p e
  have hfails : parseSentence {} tokens = .error e := by cbv
  obtain ⟨⟨⟨ns, hns⟩, htells⟩, -⟩ := failure_tellsFurthest {} tokens
  obtain ⟨i, hi⟩ := htells ns e hns hfails
  exact ⟨hfails, ns, i, hns, hi⟩

end Prose
