import Prose.Proofs.Grammar.Follows
import Prose.Proofs.Grammar.GuardedRules

/- Every guarded rule follows its rule. It has moved on where it gives something; a loop goes round
   at most once for each token, because every round takes one. -/
namespace Prose.Grammar

namespace Guarded

variable {α β : Type} {p : Phrase} {base levels lo i fuel : Nat} {s : Progress}

/-! ### Names and references -/

section Words

/-- The words from an index on. -/
def wordsFrom (p : Phrase) (i : Nat) : List Token :=
  (p.tokens.drop i).takeWhile fun t => t.kind == .identifier

theorem wordsFrom_cons (h : p.kindAt i = .identifier) :
    wordsFrom p i = p.tokenAt i :: wordsFrom p (i + 1) := by
  have hlt : i < p.size := Phrase.lt_size_of_kindAt h nofun
  have hdrop : p.tokens.drop i = p.tokenAt i :: p.tokens.drop (i + 1) := by
    rw [List.drop_eq_getElem_cons hlt, Phrase.tokenAt, List.getElem?_eq_getElem hlt,
      Option.getD_some]
  rw [wordsFrom, hdrop]
  exact List.takeWhile_cons_of_pos (beq_iff_eq.2 h)

theorem wordsFrom_nil (h : p.kindAt i ≠ .identifier) : wordsFrom p i = [] := by
  rw [wordsFrom]
  rcases hdrop : p.tokens.drop i with _ | ⟨t, rest⟩
  · rfl
  · have htoken : p.tokenAt i = t := by
      rw [Phrase.tokenAt, (drop_eq_cons hdrop).1, Option.getD_some]
    refine List.takeWhile_cons_of_neg fun hword => h ?_
    rw [Phrase.kindAt, htoken]
    exact beq_iff_eq.1 hword

theorem words_reader (hp : p.OnlyStop) (hs : p.Onward s) (hfuel : p.size < fuel + s.pos) :
    words fuel (p.reader base levels s) =
      some (some (wordsFrom p s.pos),
        p.reader base levels (s.moved (s.pos + (wordsFrom p s.pos).length))) := by
  induction fuel generalizing s with
  | zero =>
    have hpos := hs.pos
    omega
  | succ fuel ih =>
    rw [words, bind_some (at?_reader .identifier hs)]
    by_cases hkind : p.kindAt s.pos = .identifier
    · have hlt : s.pos < p.size := Phrase.lt_size_of_kindAt hkind nofun
      have hlater := ih (hs.moved hlt) (by rw [Progress.moved_pos]; omega)
      have hindex : s.pos + (wordsFrom p s.pos).length =
          s.pos + 1 + (wordsFrom p (s.pos + 1)).length := by
        rw [wordsFrom_cons hkind, List.length_cons]
        omega
      rw [if_pos (beq_iff_eq.2 hkind), bind_some (advance_reader hp hs hlt), bind_some hlater,
        hindex, wordsFrom_cons hkind]
      rfl
    · rw [if_neg (fun h => hkind (beq_iff_eq.1 h)), wordsFrom_nil hkind]
      rfl

end Words

theorem returns_reference : Returns reference := fun r t h =>
  returns_keptReference (ownedName (nested (referenceWithin r.maxDepth))) r t h

namespace Follows

theorem longName (hp : p.OnlyStop) (hs : p.Onward s) :
    Follows p base levels Guarded.longName p.longName s (s.pos + 1) := by
  unfold Guarded.longName Phrase.longName
  refine .position (.endIndex ?_)
  change Follows p base levels _ (if (wordsFrom p s.pos).isEmpty then _ else _) s (s.pos + 1)
  have hwords : words (p.size + 1) (p.reader base levels s) = _ := words_reader hp hs (by omega)
  have htook : p.Took s.pos (wordsFrom p s.pos) (s.pos + (wordsFrom p s.pos).length) :=
    ⟨List.takeWhile_prefix _, rfl⟩
  have hon := hs.moved (htook.le_size hs.pos)
  -- the words are taken before it is known whether there are any
  by_cases hempty : (wordsFrom p s.pos).isEmpty = true
  · rw [if_pos hempty]
    rw [List.isEmpty_iff.1 hempty] at hwords
    exact congr (bind_some hwords) rfl (fail hs _)
  · have hpos := List.length_pos_iff.2 fun h => hempty (List.isEmpty_iff.2 h)
    have hspan : Follows p base levels
        (do return (Token.joinTexts (wordsFrom p s.pos), ← Guarded.spanFrom s.pos))
        (do return (Token.joinTexts (wordsFrom p s.pos), ← p.spanFrom s.pos))
        (s.moved (s.pos + (wordsFrom p s.pos).length)) (s.pos + 1) :=
      spanFrom hon _ fun _ => pure' hon (by rw [Progress.moved_pos]; omega) _
    rw [if_neg hempty]
    refine congr ?_ ?_ hspan
    · rw [bind_some hwords, if_neg hempty]
    · rfl

theorem plainReference (hp : p.OnlyStop) (hs : p.Onward s) :
    Follows p base levels Guarded.plainReference p.plainReference s (s.pos + 1) := by
  unfold Guarded.plainReference Phrase.plainReference
  refine .position (.bind' (.eat hp (by decide) hs) fun _ t ht hle => ?_)
  refine .bind' (.longName hp ht) fun name u hu hle => .spanFrom hu _ fun span => ?_
  exact .pure' hu (by omega) _

theorem typeName (hp : p.OnlyStop) (hs : p.Onward s) :
    Follows p base levels Guarded.typeName p.typeName s (s.pos + 1) := by
  unfold Guarded.typeName Phrase.typeName
  refine .position (.bind' (.eatAny hp (by decide) hs _) fun article t ht hle => ?_)
  refine .bind' (.longName hp ht) fun name u hu hle => .spanFrom hu _ fun span => ?_
  exact .pure' hu (by omega) _

theorem possessions (hp : p.OnlyStop) (start : Nat) (r : Reference) (hs : p.Onward s)
    (hfuel : p.size < fuel + s.pos) :
    Follows p base levels (Guarded.possessions start fuel r) (p.possessions start fuel r) s
      s.pos := by
  induction fuel generalizing r s with
  | zero =>
    have hpos := hs.pos
    omega
  | succ fuel ih =>
    unfold Guarded.possessions Phrase.possessions
    refine .whenAt (by decide) hs (fun hlt => .position ?_) (.pure' hs (Nat.le_refl _) r)
    refine .bind' (.advance hp hs hlt) fun _ t ht hle => ?_
    refine .bind' (.skipAny hp (by decide) ht) fun _ u hu hle => ?_
    refine .outcome (.longName hp hu) (fun name v hv hle => ?_) fun v hv _ => ?_
    · refine .spanFrom hv _ fun span => ?_
      exact (ih _ hv (by omega)).mono (by omega)
    · exact .moveTo hv hs.pos fun hback => .pure' hback (Nat.le_refl _) r

theorem ownership {w : Guarded Reference} {x : Rule Reference} (hp : p.OnlyStop)
    (h : ∀ t, p.Onward t → Follows p base levels w x t (t.pos + 1)) (r : Reference)
    (hs : p.Onward s) :
    Follows p base levels (Guarded.ownership w r) (p.ownership x r) s s.pos := by
  unfold Guarded.ownership Phrase.ownership
  refine .position (.looks ahead_reader (.looks (here_reader hs) ?_))
  refine .ite' (fun hof => ?_) fun _ => .pure' hs (Nat.le_refl _) r
  have hlt : s.pos < p.size :=
    Phrase.lt_size_of_kindAt (eq_of_beq (Bool.and_eq_true_iff.1 hof).1) (by decide)
  refine .bind' (.advance hp hs hlt) fun _ t ht hle => ?_
  refine .outcome (h t ht) (fun o u hu hle => ?_) fun u hu _ => ?_
  · exact .pure' hu (by omega) _
  · exact .moveTo hu hs.pos fun hback => .pure' hback (Nat.le_refl _) r

theorem ownedName {w : Guarded Reference} {x : Rule Reference} (hp : p.OnlyStop)
    (h : ∀ t, p.Onward t → Follows p base levels w x t (t.pos + 1)) (hs : p.Onward s) :
    Follows p base levels (Guarded.ownedName w) (p.ownedName x) s (s.pos + 1) := by
  unfold Guarded.ownedName Phrase.ownedName
  refine .position (.bind' (.eatAny hp (by decide) hs _) fun _ t ht hle => ?_)
  refine .bind' (.longName hp ht) fun name u hu hle => .endIndex (.spanFrom hu _ fun span => ?_)
  refine .bind' (.possessions hp _ _ hu (by omega)) fun r v hv hle => ?_
  exact (ownership hp h r hv).mono (by omega)

/-- The levels that are left and the ones that the reader is in are all there are. -/
theorem referenceWithin {room : Nat} (hp : p.OnlyStop) (hroom : levels + room = p.room)
    (hfuel : room < fuel) (hs : p.Onward s) :
    Follows p base levels (Guarded.referenceWithin fuel) (p.referenceWithin room) s
      (s.pos + 1) := by
  induction room generalizing levels fuel s with
  | zero =>
    obtain ⟨fuel, rfl⟩ := Nat.exists_eq_add_one_of_ne_zero (Nat.ne_zero_of_lt hfuel)
    exact keptReference hs hroom (ownedName hp (fun t ht => nested_zero ht hroom) hs)
  | succ room ih =>
    obtain ⟨fuel, rfl⟩ := Nat.exists_eq_add_one_of_ne_zero (Nat.ne_zero_of_lt hfuel)
    refine keptReference hs hroom (ownedName hp (fun t ht => nested_succ ht (by omega) ?_) hs)
    exact ih (by omega) (by omega) ht

theorem reference (hp : p.OnlyStop) (hs : p.Onward s) :
    Follows p base 0 Guarded.reference p.reference s (s.pos + 1) := by
  have hfuel : p.room < base + p.room + 1 := by omega
  refine congr ?_ rfl (referenceWithin hp (Nat.zero_add _) hfuel hs)
  rfl

/-- A reference that cannot be read leaves the cursor where it was. -/
theorem reference_none {t : Progress} (hp : p.OnlyStop) (hs : p.Onward s)
    (h : p.reference s = (none, t)) : t.pos = s.pos := by
  have hfollows : Follows p 0 0 Guarded.reference p.reference s (s.pos + 1) := reference hp hs
  exact returns_reference.pos_eq hfollows h

/-! ### Expressions -/

theorem literal (hp : p.OnlyStop) (hs : p.Onward s) :
    Follows p base levels Guarded.literal p.literal s (s.pos + 1) := by
  unfold Guarded.literal Phrase.literal
  refine .position (.looks (token_reader hs.pos) ?_)
  have hadvance {k : Kind} (hkind : (p.tokenAt s.pos).kind = k) (hk : k ≠ .stop) :
      Follows p base levels Guarded.advance p.advance s (s.pos + 1) :=
    advance hp hs (Phrase.lt_size_of_kindAt hkind hk)
  dsimp only
  cases hkind : (p.tokenAt s.pos).kind with
  | intLiteral =>
    rcases Text.readInteger (p.tokenAt s.pos).text with _ | value
    · exact fail hs _
    · refine .bind' (hadvance hkind nofun) fun _ t ht hle => ?_
      refine .whenAt (by decide) ht (fun hlt => ?_) (pure' ht hle _)
      exact .bind' (.advance hp ht hlt) fun inch u hu hle => pure' hu (by omega) _
  | stringLiteral => exact .bind' (hadvance hkind nofun) fun _ t ht hle => pure' ht hle _
  | byteArrayLiteral =>
    rcases Text.readBytes ((p.tokenAt s.pos).text.toList.drop 1) with _ | value
    · exact fail hs _
    · exact .bind' (hadvance hkind nofun) fun _ t ht hle => pure' ht hle _
  | ratioLiteral =>
    rcases readRatio (p.tokenAt s.pos).text with _ | ⟨numerator, denominator⟩
    · exact fail hs _
    · exact .bind' (hadvance hkind nofun) fun _ t ht hle => pure' ht hle _
  | nullWord => exact .bind' (hadvance hkind nofun) fun _ t ht hle => pure' ht hle _
  | _ => exact fail hs _

theorem literalOrSlot (hp : p.OnlyStop) (hs : p.Onward s) :
    Follows p base levels Guarded.literalOrSlot p.literalOrSlot s (s.pos + 1) := by
  unfold Guarded.literalOrSlot Phrase.literalOrSlot
  refine .position (.bind' (.literal hp hs) fun owner t ht hle => ?_)
  refine .position (.looks (token_reader ht.pos) (.looks ahead_reader ?_))
  refine ite' (fun hslot => ?_) fun _ => .pure' ht hle owner
  have hlt : t.pos < p.size :=
    Phrase.lt_size_of_kindAt (eq_of_beq (Bool.and_eq_true_iff.1 hslot).1) (by decide)
  refine .bind' (.advance hp ht hlt) fun _ u hu hle => ?_
  refine .bind' (.longName hp hu) fun name v hv hle => ?_
  exact .spanFrom hv _ fun span => .pure' hv (by omega) _

theorem primary (hp : p.OnlyStop) (hs : p.Onward s) :
    Follows p base 0 Guarded.primary p.primary s (s.pos + 1) := by
  unfold Guarded.primary Phrase.primary
  refine .outcome (.reference hp hs) (fun r t ht hle => .pure' ht hle _) fun t ht hnone => ?_
  exact (literalOrSlot hp ht).mono (by rw [reference_none hp hs hnone])

theorem joined {operator : Nat → Option (MathOp × Nat)} {factor : Bool} {x : Rule Expr}
    {look : Guarded (Option (MathOp × Nat))} {w : Guarded Expr} (hfinds : p.Finds operator factor)
    (hlook : ∀ t, p.Onward t →
      look (p.reader base levels t) = some (some (operator t.pos), p.reader base levels t))
    (h : ∀ t, p.Onward t → Follows p base levels w x t (t.pos + 1)) (left : Expr) (hs : p.Onward s)
    (hfuel : p.size < fuel + s.pos) :
    Follows p base levels (Guarded.joined look w fuel left) (Phrase.joined operator x fuel left) s
      s.pos := by
  induction fuel generalizing left s with
  | zero =>
    have hpos := hs.pos
    omega
  | succ fuel ih =>
    unfold Guarded.joined Phrase.joined
    refine .position (.looks (hlook s hs) ?_)
    rcases hop : operator s.pos with _ | ⟨op, n⟩
    · exact .pure' hs (Nat.le_refl _) left
    · obtain ⟨-, os, hos, -⟩ := hfinds s.pos op n hop
      refine .moveTo hs (hos.le_size hs.pos) fun ht => ?_
      refine .outcome (h _ ht) (fun right u hu hle => ?_) fun u hu _ => ?_
      · rw [Progress.moved_pos] at hle
        exact (ih _ hu (by omega)).mono (by omega)
      · exact .moveTo hu hs.pos fun hback => .pure' hback (Nat.le_refl _) left

theorem factorOperator_reader (hs : p.Onward s) :
    Guarded.factorOperator (p.reader base levels s) =
      some (some (p.factorOperator s.pos), p.reader base levels s) := by
  rw [Guarded.factorOperator, bind_some (here_reader hs), bind_some ahead_reader]
  rfl

theorem termOperator_reader (hs : p.Onward s) :
    Guarded.termOperator (p.reader base levels s) =
      some (some (p.termOperator s.pos), p.reader base levels s) := by
  rw [Guarded.termOperator, bind_some (here_reader hs)]
  rfl

theorem term (hp : p.OnlyStop) (hs : p.Onward s) :
    Follows p base 0 Guarded.term p.term s (s.pos + 1) := by
  unfold Guarded.term Phrase.term
  refine .bind' (.primary hp hs) fun first t ht hle => .endIndex ?_
  refine (joined Phrase.finds_factorOperator (fun u hu => factorOperator_reader hu)
    (fun u hu => primary hp hu) first ht (by omega)).mono hle

theorem arithmetic (hp : p.OnlyStop) (hs : p.Onward s) :
    Follows p base 0 Guarded.arithmetic p.arithmetic s (s.pos + 1) := by
  refine keptExpression hs (.bind' (.term hp hs) fun first t ht hle => .endIndex ?_)
  refine (joined Phrase.finds_termOperator (fun u hu => termOperator_reader hu)
    (fun u hu => term hp hu) first ht (by omega)).mono hle

theorem comparison (hs : p.Onward s) :
    Follows p base levels Guarded.comparison p.comparison s (s.pos + 1) := by
  unfold Guarded.comparison Phrase.comparison
  refine .position (.looks ahead_reader ?_)
  generalize hfound : comparisons.find? _ = found
  rcases found with _ | ⟨kinds, op⟩
  · exact .fail hs _
  · have hkinds : ∀ entry ∈ comparisons, Kind.stop ∉ entry.1 ∧ entry.1 ≠ [] := by decide
    obtain ⟨hstop, hne⟩ := hkinds _ (List.mem_of_find?_eq_some hfound)
    have hpos := List.length_pos_iff.2 hne
    have hentry := List.find?_some hfound
    obtain ⟨os, hos, -⟩ := Phrase.took_of_stands hstop (Phrase.stands_iff.1 hentry)
    exact .moveTo hs (hos.le_size hs.pos) fun ht => .pure' ht (Nat.add_le_add_left hpos s.pos) op

theorem compared (hp : p.OnlyStop) (hs : p.Onward s) :
    Follows p base 0 Guarded.compared p.compared s (s.pos + 1) := by
  unfold Guarded.compared Phrase.compared
  refine .bind' (.arithmetic hp hs) fun first t ht hle => ?_
  refine .bind' (.comparison ht) fun op u hu hle => ?_
  exact .bind' (.arithmetic hp hu) fun second v hv hle => .pure' hv (by omega) _

theorem expression (hp : p.OnlyStop) (hs : p.Onward s) :
    Follows p base 0 Guarded.expression p.expression s (s.pos + 1) := by
  refine keptExpression hs (firstOf_cons hs (compared hp hs) fun t ht hpos => ?_)
  rw [← hpos]
  exact firstOf_cons ht (arithmetic hp ht) fun u hu _ => firstOf_nil hu

/-- Two operands with a word between them, behind the word at the cursor. -/
theorem wordBetween {γ : Type} {k : Kind} {w : Guarded α} {x : Rule α} {v : Guarded β} {y : Rule β}
    {f : α → β → Span → γ} (hp : p.OnlyStop) (hs : p.Onward s) (hlt : s.pos < p.size)
    (hk : k ≠ .stop)
    (hx : ∀ t, p.Onward t → Follows p base levels w x t (t.pos + 1))
    (hy : ∀ t, p.Onward t → Follows p base levels v y t (t.pos + 1)) :
    Follows p base levels
      (do
        let _ ← Guarded.advance
        let a ← w
        let _ ← Guarded.eat k
        let b ← v
        pure (f a b (← Guarded.spanFrom s.pos)))
      (do
        let _ ← p.advance
        let a ← x
        let _ ← p.eat k
        let b ← y
        pure (f a b (← p.spanFrom s.pos))) s (s.pos + 1) := by
  refine .bind' (.advance hp hs hlt) fun _ t ht hle => .bind' (hx t ht) fun a u hu hle => ?_
  refine .bind' (.eat hp hk hu) fun _ v hv hle => .bind' (hy v hv) fun b w hw hle => ?_
  exact .spanFrom hw _ fun span => .pure' hw (by omega) _

theorem arithmeticPhrase (hp : p.OnlyStop) (inPlace : Bool) (hs : p.Onward s) :
    Follows p base 0 (Guarded.arithmeticPhrase inPlace) (p.arithmeticPhrase inPlace) s
      (s.pos + 1) := by
  unfold Guarded.arithmeticPhrase Phrase.arithmeticPhrase
  refine .position (.looks (here_reader hs) ?_)
  have hlt {k : Kind} (hkind : p.kindAt s.pos = k) (hk : k ≠ .stop) : s.pos < p.size :=
    Phrase.lt_size_of_kindAt hkind hk
  cases hkind : p.kindAt s.pos with
  | addWord | subtractWord =>
    exact wordBetween hp hs (hlt hkind nofun) nofun (fun _ => expression hp) fun _ => reference hp
  | multiplyWord | divideWord =>
    exact wordBetween hp hs (hlt hkind nofun) nofun (fun _ => reference hp) fun _ => expression hp
  | _ => exact fail hs _

theorem assignment (hp : p.OnlyStop) (hs : p.Onward s) :
    Follows p base 0 Guarded.assignment p.assignment s (s.pos + 1) := by
  unfold Guarded.assignment Phrase.assignment
  refine .position (.whenAt (by decide) hs (fun hlt => ?_) ?_)
  · refine .bind' (.advance hp hs hlt) fun _ t ht hle => ?_
    refine .bind' (.expression hp ht) fun value u hu hle => ?_
    refine .bind' (.eatAny hp (by decide) hu _) fun _ v hv hle => ?_
    refine .bind' (.reference hp hv) fun target w hw hle => ?_
    exact .spanFrom hw _ fun span => .pure' hw (by omega) _
  · refine .bind' (.eat hp (by decide) hs) fun _ t ht hle => ?_
    refine .bind' (.reference hp ht) fun target u hu hle => ?_
    refine .bind' (.eatAny hp (by decide) hu _) fun _ v hv hle => ?_
    refine .bind' (.skipAny hp (by decide) hv) fun _ w hw hle => ?_
    refine .bind' (.expression hp hw) fun value z hz hle => ?_
    exact .spanFrom hz _ fun span => .pure' hz (by omega) _

/-! ### Declarations -/

theorem initializer (hp : p.OnlyStop) (hs : p.Onward s) :
    Follows p base 0 Guarded.initializer p.initializer s (s.pos + 1) := by
  unfold Guarded.initializer Phrase.initializer
  refine .bind' (.eat hp (by decide) hs) fun _ t ht hle => ?_
  refine .bind' (.skipAny hp (by decide) ht) fun _ u hu hle => ?_
  exact (expression hp hu).mono (by omega)

theorem variableDeclaration (hp : p.OnlyStop) (hs : p.Onward s) :
    Follows p base 0 Guarded.variableDeclaration p.variableDeclaration s (s.pos + 1) := by
  unfold Guarded.variableDeclaration Phrase.variableDeclaration
  refine .position (.bind' (.eat hp (by decide) hs) fun _ t ht hle => ?_)
  refine .bind' (.longName hp ht) fun name u hu hle => ?_
  refine .bind' (.eatAny hp (by decide) hu _) fun _ v hv hle => ?_
  refine .bind' (.typeName hp hv) fun type w hw hle => ?_
  refine .outcome (.attempt hw (.initializer hp hw)) (fun value z hz hle => ?_) fun z hz hnone => ?_
  · exact .spanFrom hz _ fun span => .pure' hz (by omega) _
  · have hpos := Rule.attempt_pos hnone
    exact .spanFrom hz _ fun span => .pure' hz (by omega) _

theorem variableStatement (hp : p.OnlyStop) (hs : p.Onward s) :
    Follows p base 0 Guarded.variableStatement p.variableStatement s (s.pos + 1) :=
  .bind' (.variableDeclaration hp hs) fun _ _ ht hle => .pure' ht hle _

theorem unitAlias (hp : p.OnlyStop) (hs : p.Onward s) :
    Follows p base levels Guarded.unitAlias p.unitAlias s (s.pos + 1) := by
  unfold Guarded.unitAlias Phrase.unitAlias
  refine .position (.bind' (.eat hp (by decide) hs) fun _ t ht hle => ?_)
  refine .bind' (.longName hp ht) fun name u hu hle => ?_
  refine .bind' (.eat hp (by decide) hu) fun _ v hv hle => ?_
  refine .bind' (.eat hp (by decide) hv) fun amount w hw hle => ?_
  rcases Text.readInteger amount.text with _ | value
  · exact fail hw _
  · refine .bind' (.eat hp (by decide) hw) fun unit z hz hle => ?_
    exact .spanFrom hz _ fun span => .pure' hz (by omega) _

theorem constantDeclaration (hp : p.OnlyStop) (hs : p.Onward s) :
    Follows p base levels Guarded.constantDeclaration p.constantDeclaration s (s.pos + 1) := by
  unfold Guarded.constantDeclaration Phrase.constantDeclaration
  refine .position (.bind' (.eat hp (by decide) hs) fun _ t ht hle => ?_)
  refine .bind' (.longName hp ht) fun name u hu hle => ?_
  refine .bind' (.eat hp (by decide) hu) fun _ v hv hle => ?_
  refine .bind' (.literal hp hv) fun value w hw hle => ?_
  exact .spanFrom hw _ fun span => .pure' hw (by omega) _

theorem pointerDeclaration (hp : p.OnlyStop) (hs : p.Onward s) :
    Follows p base levels Guarded.pointerDeclaration p.pointerDeclaration s (s.pos + 1) := by
  unfold Guarded.pointerDeclaration Phrase.pointerDeclaration
  refine .position (.bind' (.eat hp (by decide) hs) fun _ t ht hle => ?_)
  refine .bind' (.longName hp ht) fun name u hu hle => .spanFrom hu _ fun pointer => ?_
  refine .bind' (.eat hp (by decide) hu) fun _ v hv hle => ?_
  refine .bind' (.eat hp (by decide) hv) fun _ w hw hle => ?_
  refine .position (.looks (token_reader hw.pos) (.ite' (fun hpointer => ?_) fun _ => .fail hw _))
  have hkind := eq_of_beq (Bool.and_eq_true_iff.1 hpointer).1
  refine .bind' (.advance hp hw (Phrase.lt_size_of_kindAt hkind (by decide))) fun _ x hx hle => ?_
  refine .bind' (.eat hp (by decide) hx) fun _ y hy hle => ?_
  refine .bind' (.typeName hp hy) fun base z hz hle => ?_
  exact .spanFrom hz _ fun span => .pure' hz (by omega) _

theorem slotAlias (hp : p.OnlyStop) (hs : p.Onward s) :
    Follows p base levels Guarded.slotAlias p.slotAlias s (s.pos + 1) := by
  unfold Guarded.slotAlias Phrase.slotAlias
  refine .here hs ?_
  have hadvance {k : Kind} (hkind : p.kindAt s.pos = k) (hk : k ≠ .stop) :
      Follows p base levels Guarded.advance p.advance s (s.pos + 1) :=
    advance hp hs (Phrase.lt_size_of_kindAt hkind hk)
  cases hkind : p.kindAt s.pos with
  | isWord =>
    refine .bind' (hadvance hkind nofun) fun _ t ht hle => ?_
    refine .bind' (.skipAny hp (by decide) ht) fun _ u hu hle => ?_
    exact .bind' (.longName hp hu) fun name v hv hle => .pure' hv (by omega) _
  | atWord =>
    refine .bind' (hadvance hkind nofun) fun _ t ht hle => ?_
    refine .bind' (.eat hp (by decide) ht) fun _ u hu hle => ?_
    exact .bind' (.longName hp hu) fun name v hv hle => .pure' hv (by omega) _
  | _ => exact fail hs _

theorem slot (hp : p.OnlyStop) (hs : p.Onward s) :
    Follows p base levels Guarded.slot p.slot s (s.pos + 1) := by
  unfold Guarded.slot Phrase.slot
  refine .position (.bind' (.eatAny hp (by decide) hs _) fun article t ht hle => ?_)
  refine .bind' (.longName hp ht) fun name u hu hle => ?_
  refine .outcome (.attempt hu (.slotAlias hp hu)) (fun value v hv hle => ?_) fun v hv hnone => ?_
  · exact .spanFrom hv _ fun span => .pure' hv (by omega) _
  · have hpos := Rule.attempt_pos hnone
    exact .spanFrom hv _ fun span => .pure' hv (by omega) _

theorem moreSlots (hp : p.OnlyStop) (hs : p.Onward s) (hfuel : p.size < fuel + s.pos) :
    Follows p base levels (Guarded.moreSlots fuel) (p.moreSlots fuel) s s.pos := by
  induction fuel generalizing s with
  | zero =>
    have hpos := hs.pos
    omega
  | succ fuel ih =>
    unfold Guarded.moreSlots Phrase.moreSlots
    refine .position (.bind' (.skipAny hp (by decide) hs) fun _ t ht hle => ?_)
    refine .bind' (.skipAny hp (by decide) ht) fun _ u hu hle => .position ?_
    refine .ite' (fun _ => .pure' hu (by omega) _) fun _ => ?_
    refine .outcome (.slot hp hu) (fun next v hv hle => ?_) fun v hv _ => ?_
    · exact .bind' (ih hv (by omega)) fun later w hw hle => .pure' hw (by omega) _
    · exact .moveTo hv hs.pos fun hback => .pure' hback (Nat.le_refl _) _

theorem slotList (hp : p.OnlyStop) (hs : p.Onward s) :
    Follows p base levels Guarded.slotList p.slotList s (s.pos + 1) := by
  unfold Guarded.slotList Phrase.slotList
  refine .bind' (.slot hp hs) fun first t ht hle => .endIndex ?_
  exact .bind' (.moreSlots hp ht (by omega)) fun later u hu hle => .pure' hu (by omega) _

theorem shapeDeclaration (hp : p.OnlyStop) (hs : p.Onward s) :
    Follows p base levels Guarded.shapeDeclaration p.shapeDeclaration s (s.pos + 1) := by
  unfold Guarded.shapeDeclaration Phrase.shapeDeclaration
  refine .position (.bind' (.eat hp (by decide) hs) fun _ t ht hle => ?_)
  refine .bind' (.longName hp ht) fun name u hu hle => ?_
  refine .bind' (.eat hp (by decide) hu) fun _ v hv hle => ?_
  refine .bind' (.typeName hp hv) fun base w hw hle => ?_
  refine .whenAt (by decide) hw (fun hlt => ?_) (.spanFrom hw _ fun span => .pure' hw (by omega) _)
  refine .bind' (.advance hp hw hlt) fun _ x hx hle => ?_
  refine .bind' (.slotList hp hx) fun slots y hy hle => ?_
  exact .spanFrom hy _ fun span => .pure' hy (by omega) _

theorem shapeOfSlots (hp : p.OnlyStop) (hs : p.Onward s) :
    Follows p base levels Guarded.shapeOfSlots p.shapeOfSlots s (s.pos + 1) := by
  unfold Guarded.shapeOfSlots Phrase.shapeOfSlots
  refine .position (.bind' (.eat hp (by decide) hs) fun _ t ht hle => ?_)
  refine .bind' (.longName hp ht) fun name u hu hle => ?_
  refine .bind' (.eat hp (by decide) hu) fun _ v hv hle => ?_
  refine .bind' (.slotList hp hv) fun slots w hw hle => ?_
  exact .spanFrom hw _ fun span => .pure' hw (by omega) _

/-! ### Statements and headers -/

theorem resultStatement (hp : p.OnlyStop) (hs : p.Onward s) :
    Follows p base 0 Guarded.resultStatement p.resultStatement s (s.pos + 1) := by
  unfold Guarded.resultStatement Phrase.resultStatement
  have tail {t : Progress} (ht : p.Onward t) (hle : s.pos + 1 ≤ t.pos) : Follows p base 0
      (do let value ← Guarded.expression; pure (Stmt.result value (← Guarded.spanFrom s.pos)))
      (do let value ← p.expression; pure (Stmt.result value (← p.spanFrom s.pos))) t
      (s.pos + 1) := by
    refine .bind' (.expression hp ht) fun value u hu hle => ?_
    exact .spanFrom hu _ fun span => .pure' hu (by omega) _
  refine .position (.whenAt (by decide) hs (fun hlt => ?_) ?_)
  · refine .bind' (.advance hp hs hlt) fun _ t ht hle => ?_
    exact .bind' (.eat hp (by decide) ht) fun _ u hu hle => tail hu (by omega)
  · exact .bind' (.eat hp (by decide) hs) fun _ t ht hle => tail ht hle

theorem wholeComparison (hp : p.OnlyStop) (stop : Nat) (hs : p.Onward s) :
    Follows p base 0 (Guarded.wholeComparison stop) (p.wholeComparison stop) s (s.pos + 1) := by
  rw [Phrase.wholeComparison_eq]
  exact .bind' (.expression hp hs) fun e t ht hle => ⟨rfl, ht, fun _ _ => hle⟩

/-- The words of a condition that is no comparison are cut out from where it starts. -/
theorem condition (hp : p.OnlyStop) {stop : Nat} (hstop : stop ≤ p.size) (hle : s.pos ≤ stop)
    (hs : p.Onward s) :
    Follows p base 0 (Guarded.condition stop) (p.condition stop) s s.pos := by
  unfold Guarded.condition Phrase.condition
  refine .outcome (.attempt hs (.wholeComparison hp stop hs)) (fun e t ht hle => ?_)
    fun t ht hnone => ?_
  · exact .pure' ht (by omega) e
  · have hpos := Rule.attempt_pos hnone
    refine .position (.looks (cut_reader (by omega) hstop) ?_)
    rw [looseCondition_eq]
    exact pure' ht (by omega) _

theorem branches_reader (parts : List (List Token)) :
    branches parts (p.reader base levels s) =
      some (some (parts.map p.branch), p.reader base levels s) := by
  have hread : parts.mapM (p.reader base levels s).branch = some (parts.map p.branch) :=
    List.mapM_pure
  rw [branches, hread, Option.map_some]

theorem deepest_reader :
    deepest (p.reader base 0 s) = some (some (decide (p.room = 0)), p.reader base 0 s) := by
  have hdeep : base + p.room ≤ base + 0 ↔ p.room = 0 := by omega
  rw [deepest, Guarded.look, Phrase.reader, decide_eq_decide.2 hdeep]

/-- There is something to be read as a branch only where tokens are left. -/
theorem branchStatement (hs : p.Onward s) :
    Follows p base 0 Guarded.branchStatement p.branchStatement s (s.pos + 1) := by
  unfold Guarded.branchStatement Phrase.branchStatement
  refine .position (.looks deepest_reader ?_)
  by_cases hroom : p.room = 0
  · rw [if_pos hroom, if_pos (decide_eq_true hroom)]
    exact fail hs _
  rw [if_neg hroom, if_neg (mt of_decide_eq_true hroom)]
  refine .endIndex (.looks (cut_reader hs.pos (Nat.le_refl _)) ?_)
  refine .ite' (fun _ => .fail hs _) fun hparts => ?_
  have hlt : s.pos < p.size := by
    refine Nat.lt_of_le_of_ne hs.pos fun heq => hparts ?_
    rw [heq, Phrase.between, Nat.sub_self, List.take_zero]
    rfl
  refine .endIndex (.moveTo hs (Nat.le_refl _) fun ht => .looks (branches_reader _) ?_)
  rcases (Token.splitAt .semicolon (p.between s.pos p.size)).map p.branch with
    _ | ⟨⟨only, _ | _⟩, _ | ⟨next, later⟩⟩
  · exact .spanFrom ht _ fun span => .pure' ht hlt _
  · exact .spanFrom ht _ fun span => .pure' ht hlt _
  · exact .spanFrom ht _ fun span => .pure' ht hlt _
  · -- a single branch that could be read
    exact .pure' ht hlt only
  · exact .spanFrom ht _ fun span => .pure' ht hlt _

theorem conditional (hp : p.OnlyStop) (hs : p.Onward s) :
    Follows p base 0 Guarded.conditional p.conditional s (s.pos + 1) := by
  unfold Guarded.conditional Phrase.conditional
  refine .position (.bind' (.eat hp (by decide) hs) fun _ t ht hle => .position ?_)
  refine .looks (find?_reader (by decide) ht.pos) ?_
  rcases hfound : p.find? t.pos [.thenWord, .comma] with _ | separator
  · exact .endIndex (.moveTo ht (Nat.le_refl _) fun hu => .fail hu _)
  · obtain ⟨hfirst, hlt, -⟩ := Phrase.find?_eq_some hfound
    refine .ite' (fun _ => .fail ht _) fun _ => ?_
    refine .bind' (.condition hp (Nat.le_of_lt hlt) hfirst ht) fun test u hu hle => ?_
    refine .moveTo hu hlt fun hv => .bind' (.branchStatement hv) fun branch w hw hle => ?_
    rw [Progress.moved_pos] at hle
    exact .spanFrom hw _ fun span => .pure' hw (by omega) _

theorem bodyBehind_reader {separator : Option Nat} (h : ∀ i ∈ separator, i < p.size) :
    bodyBehind separator (p.reader base levels s) =
      some (some ((separator.map fun i => p.between (i + 1) p.size).filter fun ts => !ts.isEmpty),
        p.reader base levels s) := by
  rcases separator with _ | i
  · rfl
  · rw [bodyBehind, bind_some endIndex_reader, bind_some (cut_reader (h i rfl) (Nat.le_refl _))]
    rw [Option.map_some]
    rcases p.between (i + 1) p.size <;> rfl

/-- A header takes all tokens. -/
theorem header {start first : Nat} {separator : Option Nat} (hstart : start ≤ p.size)
    (hfirst : first ≤ p.size) (h : ∀ i ∈ separator, first ≤ i ∧ i < p.size) (hs : p.Onward s) :
    Follows p base levels (Guarded.header start first separator) (p.header start first separator) s
      p.size := by
  have hstop : first ≤ separator.getD p.size ∧ separator.getD p.size ≤ p.size := by
    cases separator with
    | none => exact ⟨hfirst, Nat.le_refl _⟩
    | some i => exact ⟨(h i rfl).1, Nat.le_of_lt (h i rfl).2⟩
  unfold Guarded.header Phrase.header
  refine .endIndex (.looks (cut_reader hstop.1 hstop.2) ?_)
  rw [markers_eq]
  refine .looks rfl ?_
  dsimp only
  rcases hsplit : markerPhrase [.intoWord] (p.between first (separator.getD p.size)) with i | m
  · exact .moveTo hs (Nat.le_of_lt (Phrase.lt_size_of_markerPhrase hsplit)) fun ht => .fail ht _
  · refine .ite' (fun _ => .moveTo hs hstop.2 fun ht => .fail ht _) fun _ => ?_
    refine .looks (bodyBehind_reader fun i hi => (h i hi).2) (.looks (token_reader hstart) ?_)
    refine .looks (token_reader (i := max (separator.getD p.size - 1) start) (by omega)) ?_
    exact .endIndex (.moveTo hs (Nat.le_refl _) fun ht => .pure' ht (Nat.le_refl _) _)

theorem keywordHeader (hp : p.OnlyStop) (hs : p.Onward s) :
    Follows p base levels Guarded.keywordHeader p.keywordHeader s (s.pos + 1) := by
  unfold Guarded.keywordHeader Phrase.keywordHeader
  refine .position (.bind' (.eatAny hp (by decide) hs _) fun keyword t ht hle => .position ?_)
  have htop := ht.pos
  refine .ite' (fun _ => ?_) fun _ => ?_
  · refine .looks (find?_reader (by decide) ht.pos) ?_
    rcases hfound : p.find? t.pos [.asWord] with _ | separator
    · exact .fail ht _
    · refine (header hs.pos ht.pos (fun i hi => ?_) ht).mono (by omega)
      obtain rfl := Option.some.inj hi
      obtain ⟨hfirst, hlt, -⟩ := Phrase.find?_eq_some hfound
      exact ⟨hfirst, hlt⟩
  · refine .looks (find?_reader (by decide) ht.pos) ?_
    refine (header hs.pos ht.pos (fun i hi => ?_) ht).mono (by omega)
    obtain ⟨hfirst, hlt, -⟩ := Phrase.find?_eq_some hi
    exact ⟨hfirst, hlt⟩

theorem bareHeader (hs : p.Onward s) :
    Follows p base levels Guarded.bareHeader p.bareHeader s (s.pos + 1) := by
  unfold Guarded.bareHeader Phrase.bareHeader
  refine .position (.looks (find?_reader (by decide) hs.pos) ?_)
  rcases hfound : p.find? s.pos [.arrow] with _ | arrow
  · exact .fail hs _
  · obtain ⟨hfirst, hlt, -⟩ := Phrase.find?_eq_some hfound
    refine (header hs.pos hs.pos (fun i hi => ?_) hs).mono (by omega)
    obtain rfl := Option.some.inj hi
    exact ⟨hfirst, hlt⟩

/-- A call has words, and so tokens. -/
theorem invocation (hs : p.Onward s) :
    Follows p base levels Guarded.invocation p.invocation s (s.pos + 1) := by
  unfold Guarded.invocation Phrase.invocation
  refine .position (.endIndex (.looks (cut_reader hs.pos (Nat.le_refl _)) ?_))
  rw [markers_eq]
  refine .looks rfl ?_
  rcases hsplit : markerPhrase [.intoWord, .inWord] (p.between s.pos p.size) with i | m
  · exact .moveTo hs (Nat.le_of_lt (Phrase.lt_size_of_markerPhrase hsplit)) fun ht => .fail ht _
  · refine .ite' (fun _ => .fail hs _) fun hwords => ?_
    have hlt : s.pos < p.size := by
      refine Nat.lt_of_le_of_ne hs.pos fun heq => hwords ?_
      rw [heq, Phrase.between, Nat.sub_self, List.take_zero, markerPhrase, splitMarker] at hsplit
      rw [← Except.ok.inj hsplit]
      rfl
    refine .endIndex (.moveTo hs (Nat.le_refl _) fun ht => .spanFrom ht _ fun span => ?_)
    exact .pure' ht hlt _

end Follows

end Guarded

end Prose.Grammar
