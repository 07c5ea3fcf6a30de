import Mathlib.Data.List.DropRight
import Prose.Document.Layout
import Prose.Proofs.Token.Runs

/- Fragments: the runs of tokens that are read as one sentence each. Cutting first at
   dots and then at semicolons is cutting once, at all dots and at the semicolons of
   sentences that are no conditions. -/
namespace Prose.Layout

variable {before ts run : List Token} {t dot : Token}

/-- The tokens of a sentence that stand before one of its tokens, given all before it. -/
def sentenceSoFar (before : List Token) : List Token :=
  before.rtakeWhile fun t => t.kind != .dot

/-- Whether a token ends a fragment: a dot does, and a semicolon where the sentence does
    not start with `if`. -/
def isCut (before : List Token) (t : Token) : Bool :=
  t.kind == .dot ||
    (t.kind == .semicolon && (sentenceSoFar before).head?.map Token.kind != some .ifWord)

/-- Some tokens, each with whether it ends a fragment. -/
def withCuts (before : List Token) : List Token → List (Token × Bool)
  | [] => []
  | t :: ts => (t, isCut before t) :: withCuts (before ++ [t]) ts

/-- The runs between the tokens that end a fragment. -/
def runs (before ts : List Token) : List (List Token) :=
  (((withCuts before ts).splitOnP Prod.snd).map fun run => run.map Prod.fst).filter
    fun run => !run.isEmpty

theorem withCuts_append (before ts us : List Token) :
    withCuts before (ts ++ us) = withCuts before ts ++ withCuts (before ++ ts) us := by
  induction ts generalizing before with
  | nil => simp [withCuts]
  | cons t ts ih => simp [withCuts, ih]

theorem map_fst_withCuts (before ts : List Token) : (withCuts before ts).map Prod.fst = ts := by
  induction ts generalizing before with
  | nil => rfl
  | cons t ts ih => simp [withCuts, ih]

/-- A dot starts a new sentence, whatever stands before it. -/
theorem sentenceSoFar_dot (hdot : dot.kind = .dot) (before us : List Token) :
    sentenceSoFar (before ++ dot :: us) = sentenceSoFar us := by
  induction us using List.reverseRecOn with
  | nil => simp [sentenceSoFar, hdot]
  | append_singleton us u ih =>
    have happend : before ++ dot :: (us ++ [u]) = (before ++ dot :: us) ++ [u] := by simp
    simp only [sentenceSoFar] at ih
    simp only [sentenceSoFar, happend, List.rtakeWhile_concat, ih]

theorem withCuts_dot (hdot : dot.kind = .dot) (before middle ts : List Token) :
    withCuts (before ++ dot :: middle) ts = withCuts middle ts := by
  induction ts generalizing middle with
  | nil => rfl
  | cons t ts ih =>
    have hrest : withCuts ((before ++ dot :: middle) ++ [t]) ts = withCuts (middle ++ [t]) ts := by
      rw [List.append_assoc, List.cons_append, ih]
    rw [withCuts, withCuts, hrest, isCut, isCut, sentenceSoFar_dot hdot]

theorem sentenceSoFar_self (h : ∀ t ∈ before, t.kind ≠ .dot) : sentenceSoFar before = before :=
  List.rtakeWhile_eq_self_iff.2 fun t ht => bne_iff_ne.2 (h t ht)

/-- In a sentence that starts with `if`, nothing ends a fragment. -/
theorem withCuts_conditional {first : Token} (hif : first.kind = .ifWord)
    (hbefore : ∀ t ∈ before, t.kind ≠ .dot) (hts : ∀ t ∈ ts, t.kind ≠ .dot) :
    ∀ cut ∈ withCuts (first :: before) ts, cut.2 = false := by
  induction ts generalizing before with
  | nil => simp [withCuts]
  | cons t ts ih =>
    have ht : t.kind ≠ .dot := hts t List.mem_cons_self
    have hsofar : sentenceSoFar (first :: before) = first :: before :=
      sentenceSoFar_self (by simpa [hif] using hbefore)
    have hlater : ∀ cut ∈ withCuts (first :: (before ++ [t])) ts, cut.2 = false :=
      ih (by simpa [or_imp, forall_and, ht] using hbefore) fun u hu => hts u (List.mem_cons_of_mem _ hu)
    simp only [withCuts, List.forall_mem_cons]
    exact ⟨by simp [isCut, hsofar, hif, ht], hlater⟩

/-- In any other sentence, every semicolon does. -/
theorem withCuts_plain (hhead : (before ++ ts).head?.map Token.kind ≠ some .ifWord)
    (hdot : ∀ t ∈ before ++ ts, t.kind ≠ .dot) :
    ∀ cut ∈ withCuts before ts, cut.2 = (cut.1.kind == .semicolon) := by
  induction ts generalizing before with
  | nil => simp [withCuts]
  | cons t ts ih =>
    have happend : before ++ t :: ts = (before ++ [t]) ++ ts := by simp
    have ht : t.kind ≠ .dot := hdot t (by simp)
    have hsofar : sentenceSoFar before = before :=
      sentenceSoFar_self fun u hu => hdot u (List.mem_append_left _ hu)
    have hfirst : before.head?.map Token.kind ≠ some .ifWord := by
      cases before with
      | nil => simp
      | cons => simpa using hhead
    simp only [withCuts, List.forall_mem_cons]
    refine ⟨?_, ih (happend ▸ hhead) (happend ▸ hdot)⟩
    simp [isCut, hsofar, beq_false_of_ne ht, bne_iff_ne.2 hfirst]

/-- The fragments of one sentence. -/
theorem runs_sentence (hdot : ∀ t ∈ ts, t.kind ≠ .dot) : runs [] ts = sentenceParts ts := by
  rw [runs, sentenceParts]
  cases ts with
  | nil => rfl
  | cons first ts =>
    simp only [List.head?_cons]
    split
    · next hif =>
      have hcuts : ∀ cut ∈ withCuts [] (first :: ts), cut.2 = false := by
        simp only [withCuts, List.forall_mem_cons]
        refine ⟨by simp [isCut, hif], withCuts_conditional hif nofun fun t ht => ?_⟩
        exact hdot t (List.mem_cons_of_mem _ ht)
      rw [List.splitOnP_eq_singleton hcuts, List.map_singleton, map_fst_withCuts]
      rfl
    · next hif =>
      have hcuts : ∀ cut ∈ withCuts [] (first :: ts), cut.2 = (cut.1.kind == .semicolon) :=
        withCuts_plain (by simpa using hif) hdot
      rw [Token.map_splitOnP (q := fun t => t.kind == .semicolon) hcuts, map_fst_withCuts,
        Token.splitAt_eq_splitOnP]

/-- The fragments behind a dot do not depend on what stands before it. -/
theorem runs_dot (hdot : dot.kind = .dot) (ts us : List Token) :
    runs [] (ts ++ dot :: us) = runs [] ts ++ runs [] us := by
  have hcut : isCut ts dot = true := by simp [isCut, hdot]
  have hbehind : withCuts (ts ++ [dot]) us = withCuts [] us := withCuts_dot hdot ts [] us
  simp only [runs, withCuts_append, withCuts, List.nil_append, hcut, hbehind]
  rw [List.splitOnP_append_cons _ _ rfl, List.map_append, List.filter_append]

theorem exists_dot (ts : List Token) : (∀ t ∈ ts, t.kind ≠ .dot) ∨
    ∃ us dot vs, ts = us ++ dot :: vs ∧ dot.kind = .dot ∧ ∀ t ∈ us, t.kind ≠ .dot := by
  induction ts with
  | nil => exact .inl nofun
  | cons t ts ih =>
    by_cases ht : t.kind = .dot
    · exact .inr ⟨[], t, ts, rfl, ht, nofun⟩
    · rcases ih with h | ⟨us, dot, vs, rfl, hdot, hus⟩
      · exact .inl (List.forall_mem_cons.2 ⟨ht, h⟩)
      · exact .inr ⟨t :: us, dot, vs, rfl, hdot, List.forall_mem_cons.2 ⟨ht, hus⟩⟩

/-- The fragments of some tokens are the runs that are left of them, none of them empty,
    if the dots are taken out and the semicolons of sentences that are no conditions. -/
theorem sentences_eq_runs (ts : List Token) : sentences ts = runs [] ts := by
  have hparts (pieces : List (List Token)) :
      (pieces.filter fun run => !run.isEmpty).flatMap sentenceParts =
        pieces.flatMap sentenceParts := by
    induction pieces with
    | nil => rfl
    | cons piece pieces ih => cases piece <;> simp_all [sentenceParts]
  rw [sentences, Token.splitAt_eq_splitOnP, hparts]
  -- on the number of tokens; what stands behind the first dot is shorter
  induction hn : ts.length using Nat.strongRecOn generalizing ts with
  | ind n ih =>
    rcases exists_dot ts with hts | ⟨us, dot, vs, rfl, hdot, hus⟩
    · rw [List.splitOnP_eq_singleton (by simpa using hts), runs_sentence hts]
      simp
    · rw [List.splitOnP_append_cons_of_forall_mem (by simpa using hus) dot (by simp [hdot]),
        List.flatMap_cons, runs_dot hdot, runs_sentence hus, ih _ (by simp at hn; omega) vs rfl]

/-- Where tokens keep their kinds, so do the fragments. -/
theorem sentences_map (f : Token → Token) (hf : ∀ t, (f t).kind = t.kind) (ts : List Token) :
    sentences (ts.map f) = (sentences ts).map (List.map f) := by
  have hparts (ts : List Token) :
      sentenceParts (ts.map f) = (sentenceParts ts).map (List.map f) := by
    cases ts with
    | nil => rfl
    | cons t ts =>
      have hsplit := Token.splitAt_map f hf .semicolon (t :: ts)
      simp only [sentenceParts, List.head?_cons, List.map_cons, hf, apply_ite (List.map (List.map _))]
        at hsplit ⊢
      rw [hsplit]
      rfl
  rw [sentences, sentences, Token.splitAt_map f hf, List.flatMap_map, List.map_flatMap]
  simp only [hparts]

/-- The kinds of the tokens decide about the fragments. -/
theorem map_kind_sentences {ts us : List Token} (h : ts.map Token.kind = us.map Token.kind) :
    (sentences ts).map (List.map Token.kind) = (sentences us).map (List.map Token.kind) := by
  let bare (k : Kind) : Token := ⟨k, "", 0, 0⟩
  have hbare : ts.map (bare ∘ Token.kind) = us.map (bare ∘ Token.kind) := by
    rw [← List.map_map, ← List.map_map, h]
  have hkinds (ts : List Token) : (sentences (ts.map (bare ∘ Token.kind))).map (List.map Token.kind) =
      (sentences ts).map (List.map Token.kind) := by
    rw [sentences_map (bare ∘ Token.kind) (fun _ => rfl), List.map_map]
    refine List.map_congr_left fun run _ => ?_
    rw [Function.comp_apply, List.map_map]
    rfl
  rw [← hkinds ts, hbare, hkinds us]

/-- The fragments together are part of the tokens, in their order. -/
theorem flatten_sentences_sublist (ts : List Token) : (sentences ts).flatten.Sublist ts := by
  have hparts (ts : List Token) : (sentenceParts ts).flatten.Sublist ts := by
    rw [sentenceParts]
    split
    · split
      · rw [List.flatten_singleton]
      · rw [Token.flatten_splitAt]
        exact List.filter_sublist
    · exact List.nil_sublist _
  have hall (pieces : List (List Token)) :
      (pieces.flatMap sentenceParts).flatten.Sublist pieces.flatten := by
    induction pieces with
    | nil => exact .slnil
    | cons piece pieces ih =>
      rw [List.flatMap_cons, List.flatten_append, List.flatten_cons]
      exact (hparts piece).append ih
  have hpieces := hall (Token.splitAt .dot ts)
  rw [Token.flatten_splitAt] at hpieces
  exact hpieces.trans List.filter_sublist

/-- A fragment is part of the tokens, in their order. -/
theorem sublist_of_mem_sentences (h : run ∈ sentences ts) : run.Sublist ts :=
  (List.sublist_flatten_of_mem h).trans (flatten_sentences_sublist ts)

theorem ne_nil_of_mem_sentences (h : run ∈ sentences ts) : run ≠ [] := by
  rw [sentences_eq_runs, runs, List.mem_filter] at h
  rintro rfl
  exact absurd h.2 (by decide)

end Prose.Layout
