import Prose.Proofs.Grammar.Guarded

/- Marker phrases by their indices. The loop that splits a phrase goes through its tokens with an
   index, and names are cut out between two indices. Every one of them is inside of the phrase,
   and the loop does what is said of the tokens that are left. -/
namespace Prose.Grammar

namespace Guarded

variable {ts rest next : List Token} {t : Token} {r : Reference} {i j n fuel : Nat}
  {openings : List Kind} {afterParameter : Bool}

/-- The name from an index on, with the article at another, and the index behind it. -/
def nameFrom (ts : List Token) (article first : Nat) : Option (Option (Reference × Nat)) := do
  let rest ← cutOf ts first ts.length
  let n := (rest.takeWhile fun t => t.kind == .identifier).length
  if n = 0 then return none
  else
    let words ← cutOf ts first (first + n)
    let start ← ts[article]?
    let last ← ts[first + n - 1]?
    return some (.plain (Token.joinTexts words) ⟨start.start, last.stop⟩, first + n)

/-- A name behind an article at an index, if there is a token. -/
def articleFrom (isArticle : Token → Bool) (ts : List Token) (i : Nat) :
    Option (Option (Reference × Nat)) :=
  match ts[i]? with
  | none => some none
  | some t => if isArticle t then nameFrom ts i (i + 1) else some none

/-- `a|an|some <name>` at an index. -/
def parameterFrom (ts : List Token) (i : Nat) : Option (Option (Reference × Nat)) :=
  articleFrom (fun t => t.kind == .indefiniteArticle || t.kind == .someWord) ts i

/-- `a|an|the <name>` behind an index. -/
def resultFrom (ts : List Token) (i : Nat) : Option (Option (Reference × Nat)) :=
  articleFrom (fun t => t.kind == .indefiniteArticle || t.kind == .definiteArticle) ts (i + 1)

/-- The result and the comments behind it, if the tokens end so. -/
def finalFrom (openings : List Kind) (ts : List Token) (t : Token) (i : Nat) :
    Option (Option (Reference × List Token)) := do
  if openings.contains t.kind then
    match ← resultFrom ts i with
    | none => return none
    | some (r, next) =>
      let trailing ← cutOf ts next ts.length
      return if trailing.all fun t => t.kind == .comment then some (r, trailing) else none
  else return none

/-- Splits a phrase from an index on. -/
def splitFrom (openings : List Kind) (ts : List Token) :
    Nat → Nat → Bool → Option (Except Nat MarkerPhrase)
  | 0, _, _ => none
  | fuel + 1, i, afterParameter =>
    if i < ts.length then do
      let t ← ts[i]?
      match ← parameterFrom ts i with
      | some (r, next) => return (← splitFrom openings ts fuel next true).map (.addParameter r)
      | none =>
        if t.kind == .andWord && afterParameter && (← parameterFrom ts (i + 1)).isSome then
          splitFrom openings ts fuel (i + 1) true
        else match ← finalFrom openings ts t i with
        | some (r, trailing) => return .ok ⟨trailing.map Token.text, [], some r⟩
        | none =>
          if t.kind.isWordLike || t.kind == .comment then
            return (← splitFrom openings ts fuel (i + 1) false).map (.addWord t.text)
          else return .error i
    else some (.ok ⟨[], [], none⟩)

/-- Splits a phrase into marker words, parameters and result. -/
def markers (openings : List Kind) (ts : List Token) : Option (Except Nat MarkerPhrase) :=
  splitFrom openings ts (ts.length + 1) 0 false

/-- A condition that is not a comparison. -/
def looseCondition (ts : List Token) : Option Expr := do
  let code := Token.joinTexts ts
  let span := Span.ofTokens ts
  match ← markers [] ts with
  | .ok m =>
    return .invocation (if m.words.isEmpty then code else m.marker)
      (m.parameters.map fun r => .reference r r.span) span
  | .error _ => return .invalid code span

/-! ### Indices and what is left behind them -/

theorem cutOf_eq (hij : i ≤ j) (hj : j ≤ ts.length) :
    cutOf ts i j = some ((ts.drop i).take (j - i)) :=
  if_pos ⟨hij, hj⟩

theorem cutOf_length (hi : i ≤ ts.length) : cutOf ts i ts.length = some (ts.drop i) := by
  rw [cutOf_eq hi (Nat.le_refl _), List.take_of_length_le]
  rw [List.length_drop]

/-- What is found by index from `i` on is what is found at the start of the tokens, and the index
    behind it leaves the tokens that are left. -/
def FoundFrom (ts : List Token) (i : Nat) :
    Option (Reference × List Token) → Option (Option (Reference × Nat)) → Prop
  | none, found => found = some none
  | some (r, next), found =>
    ∃ j, found = some (some (r, j)) ∧ i < j ∧ j ≤ ts.length ∧ ts.drop j = next

theorem lt_length_of_drop (h : ts.drop i = t :: rest) : i < ts.length := by
  have hlength := congrArg List.length h
  rw [List.length_drop, List.length_cons] at hlength
  omega

theorem takeWhile_of_nameAfter (h : nameAfter t rest = none) :
    rest.takeWhile (fun t => t.kind == .identifier) = [] := by
  simp only [nameAfter] at h
  split at h
  · next hlast => exact List.getLast?_eq_none_iff.1 hlast
  · cases h

theorem nameFrom_found (h : ts.drop i = t :: rest) :
    FoundFrom ts i (nameAfter t rest) (nameFrom ts i (i + 1)) := by
  have hlt := lt_length_of_drop h
  obtain ⟨htoken, hrest⟩ := drop_eq_cons h
  have hcut : cutOf ts (i + 1) ts.length = some rest := by rw [cutOf_length hlt, hrest]
  rw [nameFrom, hcut]
  rcases hname : nameAfter t rest with _ | ⟨r, next⟩
  · simp only [Option.bind_eq_bind, Option.bind_some, takeWhile_of_nameAfter hname]
    rfl
  · obtain ⟨name, rfl, hne, hkinds, hnext, rfl⟩ := nameAfter_eq_some_iff.1 hname
    have htake : (name ++ next).takeWhile (fun t => t.kind == .identifier) = name :=
      Token.takeWhile_run (fun u hu => beq_iff_eq.2 (hkinds u hu))
        fun u hu => beq_eq_false_iff_ne.2 (hnext u hu)
    have hpos := List.length_pos_iff.2 hne
    have hle : i + 1 + name.length ≤ ts.length := by
      have hlength := congrArg List.length hrest
      rw [List.length_drop, List.length_append] at hlength
      omega
    obtain ⟨hwords, hleft⟩ := tokensFrom_of_drop hrest (j := i + 1 + name.length) rfl
    have hcut' : cutOf ts (i + 1) (i + 1 + name.length) = some name := by
      rw [cutOf_eq (by omega) hle]
      exact congrArg some hwords
    have hlast : ts[i + 1 + name.length - 1]? = some (name.getLast hne) := by
      rw [Nat.add_sub_assoc hpos, ← List.getElem?_drop, hrest,
        List.getElem?_append_left (by omega), List.getLast_eq_getElem,
        List.getElem?_eq_getElem (by omega)]
    have hspan : Span.ofTokens (t :: name) = ⟨t.start, (name.getLast hne).stop⟩ := by
      simp only [Span.ofTokens, List.head?_cons, List.getLast?_cons,
        List.getLast?_eq_some_getLast hne, Option.getD_some]
    refine ⟨i + 1 + name.length, ?_, by omega, hle, hleft⟩
    simp only [Option.bind_eq_bind, Option.bind_some, htake, hcut', htoken, hlast, hspan,
      if_neg (Nat.ne_of_gt hpos)]
    rfl

/-- What is found at an index is what is found of the tokens left there. -/
theorem articleFrom_found {isArticle : Token → Bool}
    {named : List Token → Option (Reference × List Token)} (hnil : named [] = none)
    (hcons : ∀ t rest, named (t :: rest) = if isArticle t then nameAfter t rest else none)
    (ts : List Token) (i : Nat) :
    FoundFrom ts i (named (ts.drop i)) (articleFrom isArticle ts i) := by
  rw [articleFrom]
  rcases htoken : ts[i]? with _ | t
  · rw [List.drop_eq_nil_of_le (List.getElem?_eq_none_iff.1 htoken), hnil]
    rfl
  · obtain ⟨hlt, rfl⟩ := List.getElem?_eq_some_iff.1 htoken
    rw [List.drop_eq_getElem_cons hlt, hcons]
    dsimp only
    split
    · exact nameFrom_found (List.drop_eq_getElem_cons hlt)
    · rfl

theorem parameterFrom_found (ts : List Token) (i : Nat) :
    FoundFrom ts i (parameterAt (ts.drop i)) (parameterFrom ts i) :=
  articleFrom_found rfl (fun _ _ => rfl) ts i

theorem resultFrom_found (ts : List Token) (i : Nat) :
    FoundFrom ts (i + 1) (resultAt (ts.drop (i + 1))) (resultFrom ts i) :=
  articleFrom_found rfl (fun _ _ => rfl) ts (i + 1)

theorem finalFrom_eq (h : ts.drop i = t :: rest) :
    finalFrom openings ts t i =
      some (if openings.contains t.kind then finalResult rest else none) := by
  obtain ⟨-, hrest⟩ := drop_eq_cons h
  have hfound := resultFrom_found ts i
  rw [hrest] at hfound
  rw [finalFrom]
  split
  · rw [finalResult]
    rcases hresult : resultAt rest with _ | ⟨r, next⟩ <;> rw [hresult] at hfound
    · have hnone : resultFrom ts i = some none := hfound
      rw [hnone]
      rfl
    · obtain ⟨j, hj, -, hle, rfl⟩ := hfound
      simp only [hj, Option.bind_eq_bind, Option.bind_some, cutOf_length hle]
      rfl
  · rfl

theorem isSome_parameterFrom (ts : List Token) (i : Nat) :
    ∃ found, parameterFrom ts i = some found ∧ found.isSome = (parameterAt (ts.drop i)).isSome := by
  have hfound := parameterFrom_found ts i
  rcases hparameter : parameterAt (ts.drop i) with _ | ⟨r, next⟩ <;> rw [hparameter] at hfound
  · exact ⟨none, hfound, rfl⟩
  · obtain ⟨j, hj, -⟩ := hfound
    exact ⟨_, hj, rfl⟩

/-- The loop splits what is left from its index on. -/
theorem splitFrom_eq (hfuel : ts.length < fuel + i) (hi : i ≤ ts.length) :
    splitFrom openings ts fuel i afterParameter =
      some (splitMarker openings i afterParameter (ts.drop i)) := by
  induction fuel generalizing i afterParameter with
  | zero => omega
  | succ fuel ih =>
    rw [splitFrom]
    rcases Nat.lt_or_eq_of_le hi with hlt | rfl
    · have hdrop := List.drop_eq_getElem_cons hlt
      have hlength : (ts.drop (i + 1)).length + 1 = ts.length - i := by
        rw [List.length_drop]
        omega
      have hnext : ∀ flag, splitFrom openings ts fuel (i + 1) flag =
          some (splitMarker openings (i + 1) flag (ts.drop (i + 1))) :=
        fun flag => ih (by omega) hlt
      have hfound := parameterFrom_found ts i
      rw [if_pos hlt, List.getElem?_eq_getElem hlt, hdrop]
      rw [hdrop] at hfound
      rcases hparameter : parameterAt (ts[i] :: ts.drop (i + 1)) with _ | ⟨r, next⟩ <;>
        rw [hparameter] at hfound
      · -- the token is no part of a parameter
        have hnone : parameterFrom ts i = some none := hfound
        obtain ⟨joined, hjoined, hisSome⟩ := isSome_parameterFrom ts (i + 1)
        simp only [hnone, hjoined, hnext, finalFrom_eq hdrop, Option.bind_eq_bind,
          Option.bind_some, splitMarker_word hparameter, hisSome]
        generalize (if openings.contains ts[i].kind then finalResult (ts.drop (i + 1)) else none) =
          result
        split
        · rfl
        · rcases result with _ | ⟨r, trailing⟩
          · dsimp only
            split <;> rfl
          · rfl
      · obtain ⟨j, hj, hij, hle, rfl⟩ := hfound
        have hindex : i + ((ts.drop (i + 1)).length + 1 - (ts.drop j).length) = j := by
          rw [hlength, List.length_drop]
          omega
        simp only [hj, Option.bind_eq_bind, Option.bind_some, ih (by omega) hle,
          splitMarker_parameter hparameter, hindex]
        rfl
    · rw [if_neg (Nat.lt_irrefl _), List.drop_length, splitMarker]

/-- No index of the loop is outside of the phrase. -/
theorem markers_eq (openings : List Kind) (ts : List Token) :
    markers openings ts = some (markerPhrase openings ts) :=
  splitFrom_eq (by omega) (Nat.zero_le _)

theorem looseCondition_eq (ts : List Token) :
    looseCondition ts = some (Grammar.looseCondition ts) := by
  simp only [looseCondition, Grammar.looseCondition, markers_eq, Option.bind_eq_bind,
    Option.bind_some]
  cases markerPhrase [] ts <;> rfl

end Guarded

end Prose.Grammar
