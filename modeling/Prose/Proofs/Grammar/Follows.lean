import Prose.Proofs.Grammar.Guarded

/- Guarded rules that follow rules. A guarded rule follows a rule if it never stops for good, does
   the same, and leaves the reader as it was but for its progress. Both are taken through their
   runs together, and with them the cursor: it never leaves the tokens, and how far it got is known
   where something was given. One lemma for each combinator says how that goes on. -/
namespace Prose.Grammar

namespace Guarded

variable {α β : Type} {p : Phrase} {base levels lo m i j : Nat} {s : Progress}

/-- From some progress on, the guarded rule gives what the rule gives and leaves the reader as it
    was but for its progress, which is that of the rule. Where something is given, the cursor is
    not before `lo`. -/
structure Follows (p : Phrase) (base levels : Nat) (w : Guarded α) (x : Rule α) (s : Progress)
    (lo : Nat) : Prop where
  run : w (p.reader base levels s) = some ((x s).1, p.reader base levels (x s).2)
  onward : p.Onward (x s).2
  le : ∀ a, (x s).1 = some a → lo ≤ (x s).2.pos

namespace Follows

variable {w : Guarded α} {x : Rule α} {v : α → Guarded β} {f : α → Rule β}

theorem mono {hi : Nat} (h : Follows p base levels w x s hi) (hle : lo ≤ hi) :
    Follows p base levels w x s lo :=
  ⟨h.run, h.onward, fun a ha => Nat.le_trans hle (h.le a ha)⟩

theorem congr {w' : Guarded α} {y : Rule α} {t : Progress}
    (hw : w (p.reader base levels s) = w' (p.reader base levels t)) (hx : x s = y t)
    (h : Follows p base levels w' y t lo) : Follows p base levels w x s lo :=
  ⟨by rw [hw, hx, h.run], by rw [hx]; exact h.onward, by rw [hx]; exact h.le⟩

theorem pure' (hs : p.Onward s) (hlo : lo ≤ s.pos) (a : α) :
    Follows p base levels (pure a) (pure a) s lo :=
  ⟨rfl, hs, fun _ _ => hlo⟩

theorem fail (hs : p.Onward s) (what : String) :
    Follows p base levels (Guarded.fail what : Guarded α) (Rule.fail what) s lo :=
  ⟨rfl, hs.miss what, nofun⟩

theorem bind' (hx : Follows p base levels w x s m)
    (hf : ∀ a t, p.Onward t → m ≤ t.pos → Follows p base levels (v a) (f a) t lo) :
    Follows p base levels (w >>= v) (x >>= f) s lo := by
  obtain ⟨hrun, hon, hle⟩ := hx
  rcases hxs : x s with ⟨_ | a, t⟩ <;> rw [hxs] at hrun hon hle
  · have hw := bind_none (v := v) hrun
    have hr : (x >>= f) s = (none, t) := Rule.bind_none hxs
    exact ⟨by rw [hw, hr], by rw [hr]; exact hon, by rw [hr]; nofun⟩
  · have hw := bind_some (v := v) hrun
    have hr : (x >>= f) s = f a t := Rule.bind_some hxs
    obtain ⟨hrun', hon', hle'⟩ := hf a t hon (hle a rfl)
    exact ⟨by rw [hw, hr, hrun'], by rw [hr]; exact hon', by rw [hr]; exact hle'⟩

/-- The guarded rule looks at something that the rule does not need to look at. -/
theorem looks {g : Guarded β} {y : β → Guarded α} {b : β}
    (hg : g (p.reader base levels s) = some (some b, p.reader base levels s))
    (h : Follows p base levels (y b) x s lo) : Follows p base levels (g >>= y) x s lo :=
  ⟨by rw [bind_some hg, h.run], h.onward, h.le⟩

/-- Both look at the same thing. -/
theorem look {g : Guarded α} {a : α}
    (hg : g (p.reader base levels s) = some (some a, p.reader base levels s))
    (hx : x s = (some a, s)) (h : Follows p base levels (v a) (f a) s lo) :
    Follows p base levels (g >>= v) (x >>= f) s lo := by
  have hr : (x >>= f) s = f a s := Rule.bind_some hx
  have hsame := looks hg h
  exact ⟨by rw [hr]; exact hsame.run, by rw [hr]; exact hsame.onward, by rw [hr]; exact hsame.le⟩

theorem position {v : Nat → Guarded β} {f : Nat → Rule β}
    (h : Follows p base levels (v s.pos) (f s.pos) s lo) :
    Follows p base levels (Guarded.position >>= v) (Rule.position >>= f) s lo :=
  look rfl rfl h

theorem endIndex {v : Nat → Guarded α} (h : Follows p base levels (v p.size) x s lo) :
    Follows p base levels (Guarded.endIndex >>= v) x s lo :=
  looks endIndex_reader h

theorem moveTo {v : Unit → Guarded β} {f : Unit → Rule β} (hs : p.Onward s) (hi : i ≤ p.size)
    (h : p.Onward (s.moved i) → Follows p base levels (v ()) (f ()) (s.moved i) lo) :
    Follows p base levels (Guarded.moveTo i >>= v) (Rule.moveTo i >>= f) s lo :=
  have h' := h (hs.moved hi)
  ⟨h'.run, h'.onward, h'.le⟩

theorem ite' {c : Prop} [Decidable c] {w' : Guarded α} {y : Rule α}
    (hx : c → Follows p base levels w x s lo) (hy : ¬c → Follows p base levels w' y s lo) :
    Follows p base levels (if c then w else w') (if c then x else y) s lo := by
  split
  · next h => exact hx h
  · next h => exact hy h

/-! Taking tokens. -/

theorem here {v : Kind → Guarded β} {f : Kind → Rule β} (hs : p.Onward s)
    (h : Follows p base levels (v (p.kindAt s.pos)) (f (p.kindAt s.pos)) s lo) :
    Follows p base levels (Guarded.here >>= v) (p.here >>= f) s lo :=
  look (here_reader hs) rfl h

/-- Whether a token stands at the cursor; if so, the cursor is not at the end. -/
theorem whenAt {k : Kind} (hk : k ≠ .stop) (hs : p.Onward s) {w w' : Guarded α} {x y : Rule α}
    (hx : s.pos < p.size → Follows p base levels w x s lo)
    (hy : Follows p base levels w' y s lo) :
    Follows p base levels (Guarded.at? k >>= fun b => if b then w else w')
      (p.at? k >>= fun b => if b then x else y) s lo := by
  refine look (at?_reader k hs) rfl (ite' (fun hkind => ?_) fun _ => hy)
  exact hx (Phrase.lt_size_of_kindAt (eq_of_beq hkind) hk)

theorem whenAny {kinds : List Kind} (hk : .stop ∉ kinds) (hs : p.Onward s) {w w' : Guarded α}
    {x y : Rule α} (hx : s.pos < p.size → Follows p base levels w x s lo)
    (hy : Follows p base levels w' y s lo) :
    Follows p base levels (Guarded.atAny? kinds >>= fun b => if b then w else w')
      (p.atAny? kinds >>= fun b => if b then x else y) s lo := by
  refine look (atAny?_reader kinds hs) rfl (ite' (fun hkind => ?_) fun _ => hy)
  refine hx (Phrase.lt_size_of_kindAt rfl fun h => hk ?_)
  rw [← h]
  exact List.contains_iff_mem.1 hkind

theorem advance (hp : p.OnlyStop) (hs : p.Onward s) (hlt : s.pos < p.size) :
    Follows p base levels Guarded.advance p.advance s (s.pos + 1) := by
  have hx : p.advance s = (some (p.tokenAt s.pos), s.moved (s.pos + 1)) := by
    rw [Phrase.advance, if_pos hlt]
    rfl
  exact ⟨by rw [advance_reader hp hs hlt, hx], by rw [hx]; exact hs.moved hlt,
    by rw [hx]; exact fun _ _ => Nat.le_refl _⟩

theorem eat (hp : p.OnlyStop) {k : Kind} (hk : k ≠ .stop) (hs : p.Onward s) :
    Follows p base levels (Guarded.eat k) (p.eat k) s (s.pos + 1) :=
  whenAt hk hs (advance hp hs) (fail hs _)

theorem eatAny (hp : p.OnlyStop) {kinds : List Kind} (hk : .stop ∉ kinds) (hs : p.Onward s)
    (what : String) :
    Follows p base levels (Guarded.eatAny kinds what) (p.eatAny kinds what) s (s.pos + 1) :=
  whenAny hk hs (advance hp hs) (fail hs _)

theorem skipAny (hp : p.OnlyStop) {kinds : List Kind} (hk : .stop ∉ kinds) (hs : p.Onward s) :
    Follows p base levels (Guarded.skipAny kinds) (p.skipAny kinds) s s.pos := by
  refine whenAny hk hs (fun hlt => ?_) (pure' hs (Nat.le_refl _) ())
  exact (advance hp hs hlt).bind' fun _ t ht hle => pure' ht (by omega) ()

theorem spanFrom {v : Span → Guarded β} {f : Span → Rule β} (hs : p.Onward s) (first : Nat)
    (h : ∀ span, Follows p base levels (v span) (f span) s lo) :
    Follows p base levels (Guarded.spanFrom first >>= v) (p.spanFrom first >>= f) s lo := by
  have hpos := hs.pos
  refine look (a := p.spanBetween first s.pos) ?_ rfl (h _)
  rw [Guarded.spanFrom, bind_some endIndex_reader,
    bind_some (token_reader (Nat.min_le_right first p.size)), tokenAt_min,
    bind_some position_reader, Phrase.spanBetween]
  by_cases hlt : first < s.pos
  · have hlast : s.pos - 1 ≤ p.size := by omega
    rw [if_pos hlt, if_pos hlt, bind_some (token_reader hlast)]
    rfl
  · rw [if_neg hlt, if_neg hlt]
    rfl

/-! Going back. -/

theorem attempt (hs : p.Onward s) (hx : Follows p base levels w x s lo) :
    Follows p base levels (Guarded.attempt w) (Rule.attempt x) s lo := by
  obtain ⟨hrun, hon, hle⟩ := hx
  rcases hxs : x s with ⟨_ | a, t⟩ <;> rw [hxs] at hrun hon hle
  · have hr := Rule.attempt_none hxs
    refine ⟨?_, by rw [hr]; exact hon.moved hs.pos, by rw [hr]; nofun⟩
    rw [hr, Guarded.attempt, hrun]
    rfl
  · have hr := Rule.attempt_some hxs
    refine ⟨?_, by rw [hr]; exact hon, by rw [hr]; exact hle⟩
    rw [hr, Guarded.attempt, hrun]

/-- Where the rule fails, something goes on from where it left the cursor. -/
theorem outcome {v : Option α → Guarded β} {f : Option α → Rule β}
    (hx : Follows p base levels w x s m)
    (hsome : ∀ a t, p.Onward t → m ≤ t.pos → Follows p base levels (v (some a)) (f (some a)) t lo)
    (hnone : ∀ t, p.Onward t → x s = (none, t) → Follows p base levels (v none) (f none) t lo) :
    Follows p base levels (Guarded.outcome w >>= v) (Rule.outcome x >>= f) s lo := by
  obtain ⟨hrun, hon, hle⟩ := hx
  have hr : (Rule.outcome x >>= f) s = f (x s).1 (x s).2 := Rule.bind_some Rule.outcome_eq
  have hw : (Guarded.outcome w >>= v) (p.reader base levels s) =
      v (x s).1 (p.reader base levels (x s).2) := by
    rw [bind_some (t := p.reader base levels (x s).2)]
    rw [Guarded.outcome, hrun, Option.map_some]
  have hgoes : Follows p base levels (v (x s).1) (f (x s).1) (x s).2 lo := by
    rcases hxs : x s with ⟨_ | a, t⟩ <;> rw [hxs] at hon hle
    · exact hnone t hon hxs
    · exact hsome a t hon (hle a rfl)
  exact ⟨by rw [hw, hr, hgoes.run], by rw [hr]; exact hgoes.onward, by rw [hr]; exact hgoes.le⟩

theorem firstOf_nil (hs : p.Onward s) :
    Follows p base levels (Guarded.firstOf ([] : List (Guarded α))) (Rule.firstOf []) s lo :=
  ⟨rfl, hs, nofun⟩

theorem firstOf_cons {ws : List (Guarded α)} {xs : List (Rule α)} (hs : p.Onward s)
    (hx : Follows p base levels w x s lo)
    (hxs : ∀ t, p.Onward t → t.pos = s.pos →
      Follows p base levels (Guarded.firstOf ws) (Rule.firstOf xs) t lo) :
    Follows p base levels (Guarded.firstOf (w :: ws)) (Rule.firstOf (x :: xs)) s lo := by
  obtain ⟨hrun, hon, hle⟩ := hx.attempt hs
  rcases hattempt : Rule.attempt x s with ⟨_ | a, t⟩ <;> rw [hattempt] at hrun hon hle
  · have hr : Rule.firstOf (x :: xs) s = Rule.firstOf xs t := Rule.firstOf_cons_none hattempt
    obtain ⟨hrun', hon', hle'⟩ := hxs t hon (Rule.attempt_pos hattempt)
    refine ⟨?_, by rw [hr]; exact hon', by rw [hr]; exact hle'⟩
    simp only [hr, Guarded.firstOf, hrun]
    exact hrun'
  · have hr : Rule.firstOf (x :: xs) s = (some a, t) := Rule.firstOf_cons_some hattempt
    refine ⟨?_, by rw [hr]; exact hon, by rw [hr]; exact hle⟩
    simp only [hr, Guarded.firstOf, hrun]

theorem complete (hs : p.Onward s) (hx : Follows p base levels w x s lo) :
    Follows p base levels (Guarded.complete w) (p.complete x) s lo := by
  refine attempt hs (bind' hx fun a t ht hle => ?_)
  exact look (at?_reader .stop ht) rfl (ite' (fun _ => pure' ht hle a) fun _ => fail ht _)

/-! Kept results. -/

theorem restore (hs : p.Onward s) {r : Result α} (hr : p.LeadsOn s.pos r) :
    Follows p base levels (Guarded.restore r) (Phrase.restore r) s (s.pos + 1) := by
  rcases r with _ | ⟨a, stop⟩
  · exact ⟨rfl, hs, nofun⟩
  · obtain ⟨hlt, hle⟩ := hr a stop rfl
    exact ⟨rfl, hs.moved hle, fun _ _ => hlt⟩

/-- What is kept of a rule leads on. -/
theorem leadsOn (h : Follows p base levels w x s (i + 1)) :
    p.LeadsOn i ((x s).1.map fun a => (a, (x s).2.pos)) := by
  intro a stop hkept
  obtain ⟨b, hb, hpair⟩ := Option.map_eq_some_iff.1 hkept
  obtain ⟨rfl, rfl⟩ := Prod.mk.inj hpair
  exact ⟨h.le b hb, h.onward.pos⟩

theorem keep (store : Progress → Result α → Progress)
    (h : Follows p base levels w x s (i + 1)) (hs : p.Onward s)
    (hstore : ∀ t r, p.Onward t → p.LeadsOn i r → p.Onward (store t r))
    (hpos : ∀ t r, (store t r).pos = t.pos) :
    Follows p base levels (Guarded.keep store w) (Phrase.keep store x) s (i + 1) := by
  have hattempt := h.attempt hs
  refine ⟨?_, ?_, fun a ha => ?_⟩
  · rw [Rule.keep_eq, Guarded.keep, hattempt.run, Option.map_some]
    rfl
  · rw [Rule.keep_eq]
    exact hstore _ _ hattempt.onward hattempt.leadsOn
  · rw [Rule.keep_eq] at ha ⊢
    rw [hpos]
    exact hattempt.le a ha

theorem keptExpression {k : Kept} {w : Guarded Expr} {x : Rule Expr} (hs : p.Onward s)
    (h : Follows p base levels w x s (s.pos + 1)) :
    Follows p base levels (Guarded.keptExpression k w) (p.keptExpression k x) s (s.pos + 1) := by
  rcases Bool.eq_false_or_eq_true p.memoize with hm | hm
  · rcases hlookup : s.expressions.lookup (k, s.pos) with _ | r
    · refine congr ?_ ?_ (keep
        (fun t result => { t with expressions := ((k, s.pos), result) :: t.expressions }) h hs
        (fun t r ht hr => ht.keepExpression hr) fun _ _ => rfl)
      · simp only [Guarded.keptExpression, Phrase.reader, hm, hlookup, if_true]
      · simp only [Phrase.keptExpression, hm, hlookup, if_true]
    · refine congr ?_ ?_ (restore hs (hs.expressions _ (mem_of_lookup hlookup)))
      · simp only [Guarded.keptExpression, Phrase.reader, hm, hlookup, if_true]
      · simp only [Phrase.keptExpression, hm, hlookup, if_true]
  · refine congr ?_ ?_ (attempt hs h)
    · simp only [Guarded.keptExpression, Phrase.reader, hm, Bool.false_eq_true, if_false]
    · simp only [Phrase.keptExpression, hm, Bool.false_eq_true, if_false]

theorem keptReference {room : Nat} {w : Guarded Reference} {x : Rule Reference} (hs : p.Onward s)
    (hroom : levels + room = p.room) (h : Follows p base levels w x s (s.pos + 1)) :
    Follows p base levels (Guarded.keptReference w) (p.keptReference room x) s (s.pos + 1) := by
  have hkey : base + p.room - (base + levels) = room := by omega
  rcases Bool.eq_false_or_eq_true p.memoize with hm | hm
  · rcases hlookup : s.references.lookup (s.pos, room) with _ | r
    · refine congr ?_ ?_ (keep
        (fun t result => { t with references := ((s.pos, room), result) :: t.references }) h hs
        (fun t r ht hr => ht.keepReference hr) fun _ _ => rfl)
      · simp only [Guarded.keptReference, Phrase.reader, hkey, hm, hlookup, if_true]
      · simp only [Phrase.keptReference, hm, hlookup, if_true]
    · refine congr ?_ ?_ (restore hs (hs.references _ (mem_of_lookup hlookup)))
      · simp only [Guarded.keptReference, Phrase.reader, hkey, hm, hlookup, if_true]
      · simp only [Phrase.keptReference, hm, hlookup, if_true]
  · refine congr ?_ ?_ (attempt hs h)
    · simp only [Guarded.keptReference, Phrase.reader, hm, Bool.false_eq_true, if_false]
    · simp only [Phrase.keptReference, hm, Bool.false_eq_true, if_false]

/-- At the last level nothing is nested any more. -/
theorem nested_zero (hs : p.Onward s) (hlevels : levels = p.room) :
    Follows p base levels (Guarded.nested w) (Rule.fail "shallower nesting") s lo := by
  refine congr ?_ rfl (fail hs _)
  simp only [Guarded.nested, Phrase.reader, hlevels, Nat.le_refl, if_true]

/-- One level deeper, and back. -/
theorem nested_succ (hs : p.Onward s) (hlevels : levels < p.room)
    (h : Follows p base (levels + 1) w x s lo) :
    Follows p base levels (Guarded.nested w) (Rule.attempt x) s lo := by
  obtain ⟨hrun, hon, hle⟩ := h.attempt hs
  refine ⟨?_, hon, hle⟩
  have hroom : ¬base + p.room ≤ base + levels := by omega
  simp only [Phrase.reader, ← Nat.add_assoc] at hrun
  simp only [Guarded.nested, Phrase.reader, if_neg hroom, hrun, Option.map_some,
    Nat.add_sub_cancel]

end Follows

/-- A rule goes back where the guarded rule that follows it does. -/
theorem Returns.pos_eq {x : Rule α} {t : Progress} (hw : Returns w)
    (h : Follows p base levels w x s lo) (hx : x s = (none, t)) : t.pos = s.pos := by
  have hrun := h.run
  rw [hx] at hrun
  exact hw _ _ hrun

end Guarded

end Prose.Grammar
