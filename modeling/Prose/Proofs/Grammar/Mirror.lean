import Prose.Proofs.Grammar.Course

/- Kept results and fresh readings. A phrase read without keeping results is the
   phrase read afresh. Every kept result is sound: from its index the rule, read
   afresh, would take a course with that result, and all notes of the course are
   known, so nothing is lost by not taking it. A rule mirrors its fresh form if from
   sound kept results it gives the same value, leaves the same cursor and the same
   notes, and keeps only sound results again. -/
namespace Prose.Grammar

open Rule

variable {α β : Type}

/-- A rule of expressions whose results are kept. -/
def Phrase.keptRule (p : Phrase) : Kept → Rule Expr
  | .expression => p.expression
  | .arithmetic => p.arithmetic

/-- The phrase, read without keeping results. -/
def Phrase.fresh (p : Phrase) : Phrase := { p with memoize := false }

/-- A kept result that the rule would give again, with nothing new to note. -/
def Result.Sound (x : Rule α) (i : Nat) (r : Result α) (s : Progress) : Prop :=
  ∃ c : Course α, x.Takes i c ∧ c.result = r ∧ ∀ n ∈ c.notes, s.Knows n

/-- All kept results are sound. -/
structure Phrase.Faithful (p : Phrase) (s : Progress) : Prop where
  expressions : ∀ e ∈ s.expressions, Result.Sound (p.fresh.keptRule e.1.1) e.1.2 e.2 s
  references : ∀ e ∈ s.references, Result.Sound (p.fresh.referenceWithin e.1.2) e.1.1 e.2 s

/-- What can be noted in reading a phrase: from the start, the cursor is moved, something
    is noted, and rules are run whose results are kept. -/
inductive Phrase.Reached (p : Phrase) : Progress → Prop where
  | start : Reached p {}
  | moved {s : Progress} (i : Nat) (h : Reached p s) : Reached p (s.moved i)
  | missed {s : Progress} (what : String) (h : Reached p s) : Reached p (s.miss what)
  | kept {s : Progress} (k : Kept) (h : Reached p s) : Reached p (p.keptRule k s).2
  | reference {s : Progress} (room : Nat) (h : Reached p s) : Reached p (p.referenceWithin room s).2

theorem mem_of_lookup {κ : Type} [BEq κ] [LawfulBEq κ] {l : List (κ × α)} {k : κ} {a : α}
    (h : l.lookup k = some a) : (k, a) ∈ l := by
  obtain ⟨l₁, l₂, rfl, -⟩ := List.lookup_eq_some_iff.1 h
  exact List.mem_append_right _ List.mem_cons_self

theorem Result.Sound.mono {x : Rule α} {i : Nat} {r : Result α} {s t : Progress}
    (h : Result.Sound x i r s) (hst : ∀ n, s.Knows n → t.Knows n) : Result.Sound x i r t := by
  obtain ⟨c, hc, hr, hn⟩ := h
  exact ⟨c, hc, hr, fun n hmem => hst n (hn n hmem)⟩

namespace Phrase.Faithful

variable {p : Phrase} {s : Progress}

theorem start : p.Faithful {} :=
  ⟨fun _ h => absurd h List.not_mem_nil, fun _ h => absurd h List.not_mem_nil⟩

theorem moved (h : p.Faithful s) (i : Nat) : p.Faithful (s.moved i) := ⟨h.expressions, h.references⟩

theorem restore {α : Type} (h : p.Faithful s) (r : Result α) :
    p.Faithful (Phrase.restore r s).2 := by
  rcases r with _ | ⟨a, i⟩
  · exact h
  · exact h.moved i

theorem missed (h : p.Faithful s) (what : String) : p.Faithful (s.miss what) := by
  rw [Progress.miss_eq_note]
  exact ⟨fun e he => (h.expressions e he).mono fun _ => Progress.Knows.note,
    fun e he => (h.references e he).mono fun _ => Progress.Knows.note⟩

theorem keepExpression (h : p.Faithful s) {k : Kept} {i : Nat} {r : Result Expr}
    (hr : Result.Sound (p.fresh.keptRule k) i r s) :
    p.Faithful { s with expressions := ((k, i), r) :: s.expressions } := by
  refine ⟨fun e he => ?_, h.references⟩
  rcases List.mem_cons.1 he with rfl | he
  · exact hr
  · exact h.expressions e he

theorem keepReference (h : p.Faithful s) {room i : Nat} {r : Result Reference}
    (hr : Result.Sound (p.fresh.referenceWithin room) i r s) :
    p.Faithful { s with references := ((i, room), r) :: s.references } := by
  refine ⟨h.expressions, fun e he => ?_⟩
  rcases List.mem_cons.1 he with rfl | he
  · exact hr
  · exact h.references e he

end Phrase.Faithful

/-- A rule of a phrase, and what it is when the phrase is read afresh. -/
structure Mirrors (p : Phrase) (x y : Rule α) : Prop where
  steady : y.Steady
  run {s : Progress} (h : p.Faithful s) : y s.plain = ((x s).1, (x s).2.plain)
  faithful {s : Progress} (h : p.Faithful s) : p.Faithful (x s).2
  reached {s : Progress} (h : p.Reached s) : p.Reached (x s).2

namespace Mirrors

variable {p : Phrase} {x y : Rule α}

/-- A rule that only looks at the cursor and moves it. -/
theorem look (f : Nat → Option α) (g : Nat → Nat) :
    Mirrors p (fun s => (f s.pos, { s with pos := g s.pos }))
      (fun s => (f s.pos, { s with pos := g s.pos })) where
  steady := Steady.look f g
  run _ := rfl
  faithful h := h.moved _
  reached h := h.moved _

theorem pure' (a : α) : Mirrors p (pure a) (pure a) := look (fun _ => some a) id

theorem position : Mirrors p Rule.position Rule.position := look some id

theorem moveTo (i : Nat) : Mirrors p (Rule.moveTo i) (Rule.moveTo i) :=
  look (fun _ => some ()) fun _ => i

theorem fail (what : String) : Mirrors p (Rule.fail what : Rule α) (Rule.fail what) where
  steady := Steady.fail what
  run _ := by
    simp only [Rule.fail, Progress.miss_eq_note]
    rfl
  faithful h := h.missed what
  reached h := h.missed what

theorem bind' {f g : α → Rule β} (hx : Mirrors p x y) (hf : ∀ a, Mirrors p (f a) (g a)) :
    Mirrors p (x >>= f) (y >>= g) where
  steady := hx.steady.bind' fun a => (hf a).steady
  run {s} h := by
    have hy := hx.run h
    have ht := hx.faithful h
    rcases hxs : x s with ⟨_ | a, t⟩ <;> rw [hxs] at hy ht
    · rw [bind_none hxs, bind_none hy]
    · rw [bind_some hxs, bind_some hy]
      exact (hf a).run ht
  faithful {s} h := by
    have ht := hx.faithful h
    rcases hxs : x s with ⟨_ | a, t⟩ <;> rw [hxs] at ht
    · rw [bind_none hxs]
      exact ht
    · rw [bind_some hxs]
      exact (hf a).faithful ht
  reached {s} h := by
    have ht := hx.reached h
    rcases hxs : x s with ⟨_ | a, t⟩ <;> rw [hxs] at ht
    · rw [bind_none hxs]
      exact ht
    · rw [bind_some hxs]
      exact (hf a).reached ht

theorem attempt (hx : Mirrors p x y) : Mirrors p (Rule.attempt x) (Rule.attempt y) where
  steady := hx.steady.attempt
  run {s} h := by
    have hy := hx.run h
    rcases hxs : x s with ⟨_ | a, t⟩ <;> rw [hxs] at hy
    · rw [attempt_none hxs, attempt_none hy]
      rfl
    · rw [attempt_some hxs, attempt_some hy]
  faithful {s} h := by
    have ht := hx.faithful h
    rcases hxs : x s with ⟨_ | a, t⟩ <;> rw [hxs] at ht
    · rw [attempt_none hxs]
      exact ht.moved _
    · rw [attempt_some hxs]
      exact ht
  reached {s} h := by
    have ht := hx.reached h
    rcases hxs : x s with ⟨_ | a, t⟩ <;> rw [hxs] at ht
    · rw [attempt_none hxs]
      exact ht.moved _
    · rw [attempt_some hxs]
      exact ht

theorem outcome (hx : Mirrors p x y) : Mirrors p (Rule.outcome x) (Rule.outcome y) where
  steady := hx.steady.outcome
  run h := by rw [outcome_eq, outcome_eq, hx.run h]
  faithful h := hx.faithful h
  reached h := hx.reached h

theorem ite' {c : Prop} [Decidable c] {x' y' : Rule α} (hx : Mirrors p x y)
    (hx' : Mirrors p x' y') : Mirrors p (if c then x else x') (if c then y else y') := by
  split
  · exact hx
  · exact hx'

theorem firstOf_nil : Mirrors p (firstOf ([] : List (Rule α))) (firstOf []) :=
  look (fun _ => none) id

theorem firstOf_cons {xs ys : List (Rule α)} (hx : Mirrors p x y)
    (hxs : Mirrors p (firstOf xs) (firstOf ys)) :
    Mirrors p (firstOf (x :: xs)) (firstOf (y :: ys)) where
  steady := hx.steady.firstOf_cons hxs.steady
  run {s} h := by
    have hy := hx.attempt.run h
    have ht := hx.attempt.faithful h
    rcases hs : Rule.attempt x s with ⟨_ | a, t⟩ <;> rw [hs] at hy ht
    · rw [Rule.firstOf_cons_none hs, Rule.firstOf_cons_none hy]
      exact hxs.run ht
    · rw [Rule.firstOf_cons_some hs, Rule.firstOf_cons_some hy]
  faithful {s} h := by
    have ht := hx.attempt.faithful h
    rcases hs : Rule.attempt x s with ⟨_ | a, t⟩ <;> rw [hs] at ht
    · rw [Rule.firstOf_cons_none hs]
      exact hxs.faithful ht
    · rw [Rule.firstOf_cons_some hs]
      exact ht
  reached {s} h := by
    have ht := hx.attempt.reached h
    rcases hs : Rule.attempt x s with ⟨_ | a, t⟩ <;> rw [hs] at ht
    · rw [Rule.firstOf_cons_none hs]
      exact hxs.reached ht
    · rw [Rule.firstOf_cons_some hs]
      exact ht

end Mirrors

/-! Rules whose results are kept. -/

/-- A rule that is attempted and fails stops where it started. -/
theorem stop_of_takes_attempt {x : Rule α} {i : Nat} {c : Course α} (h : (attempt x).Takes i c)
    (hc : c.value = none) : c.stop = i := by
  have hrun := h (({} : Progress).moved i) rfl
  rw [Course.run, hc] at hrun
  have hpos := attempt_pos hrun
  exact hpos

variable {p : Phrase} {x y : Rule α}

/-- Taking a sound result is what running the rule afresh comes to. -/
theorem run_restore {s : Progress} {r : Result α} (hr : Result.Sound (attempt y) s.pos r s) :
    attempt y s.plain = ((Phrase.restore r s).1, (Phrase.restore r s).2.plain) := by
  obtain ⟨c, hc, rfl, hn⟩ := hr
  have hrun := hc s.plain rfl
  -- everything that the course would note is known already
  have hnotes : s.plain.noteAll c.notes = s.plain := Progress.noteAll_of_knows hn
  rw [hrun, Course.run, hnotes, Course.result]
  cases ha : c.value with
  | none => rw [stop_of_takes_attempt hc ha]; rfl
  | some a => rfl

/-- What a run of the rule gave is sound to keep. -/
theorem sound_of_run {s : Progress} (hx : Mirrors p x y) (h : p.Faithful s) :
    Result.Sound (attempt y) s.pos
      ((attempt x s).1.map fun a => (a, (attempt x s).2.pos)) (attempt x s).2 := by
  -- the course taken afresh is the one whose notes are known now
  obtain ⟨c, hc⟩ := hx.attempt.steady s.pos
  have hrun := (hc s.plain rfl).symm.trans (hx.attempt.run h)
  obtain ⟨hval, hst⟩ := Prod.mk.inj hrun
  refine ⟨c, hc, ?_, fun n hn => ?_⟩
  · rw [Course.result, ← hval, show c.stop = (attempt x s).2.pos from congrArg Progress.pos hst]
  · have hknown : ((s.plain.noteAll c.notes).moved c.stop).Knows n := Progress.knows_noteAll n hn
    rw [hst] at hknown
    exact hknown

/-- Running a rule and keeping its result is what running it afresh comes to. -/
theorem run_keep {s : Progress} {store : Progress → Result α → Progress}
    (hstore : ∀ t r, (store t r).plain = t.plain) (hx : Mirrors p x y) (h : p.Faithful s) :
    attempt y s.plain = ((Phrase.keep store x s).1, (Phrase.keep store x s).2.plain) := by
  rw [keep_eq, hstore]
  exact hx.attempt.run h

namespace Mirrors

/-- A rule of expressions mirrors its fresh form if what it runs does. -/
theorem keptRule {k : Kept} {x y : Rule Expr} (hx : p.keptRule k = p.keptExpression k x)
    (hy : p.fresh.keptRule k = Rule.attempt y) (h : Mirrors p x y) :
    Mirrors p (p.keptRule k) (p.fresh.keptRule k) where
  steady := hy ▸ h.steady.attempt
  run {s} hs := by
    rw [hx, hy, Phrase.keptExpression]
    split
    · split
      · next r hr =>
        have hsound := hs.expressions _ (mem_of_lookup hr)
        exact run_restore (hy ▸ hsound)
      · exact run_keep (fun _ _ => rfl) h hs
    · exact h.attempt.run hs
  faithful {s} hs := by
    rw [hx, Phrase.keptExpression]
    split
    · split
      · next r hr => exact hs.restore r
      · rw [keep_eq]
        exact (h.attempt.faithful hs).keepExpression (hy ▸ sound_of_run h hs)
    · exact h.attempt.faithful hs
  reached hs := hs.kept k

/-- A rule of references mirrors its fresh form if what it runs does. -/
theorem referenceWithin {room : Nat} {x y : Rule Reference}
    (hx : p.referenceWithin room = p.keptReference room x)
    (hy : p.fresh.referenceWithin room = Rule.attempt y) (h : Mirrors p x y) :
    Mirrors p (p.referenceWithin room) (p.fresh.referenceWithin room) where
  steady := hy ▸ h.steady.attempt
  run {s} hs := by
    rw [hx, hy, Phrase.keptReference]
    split
    · split
      · next r hr =>
        have hsound := hs.references _ (mem_of_lookup hr)
        exact run_restore (hy ▸ hsound)
      · exact run_keep (fun _ _ => rfl) h hs
    · exact h.attempt.run hs
  faithful {s} hs := by
    rw [hx, Phrase.keptReference]
    split
    · split
      · next r hr => exact hs.restore r
      · rw [keep_eq]
        exact (h.attempt.faithful hs).keepReference (hy ▸ sound_of_run h hs)
    · exact h.attempt.faithful hs
  reached hs := hs.reference room

end Mirrors

end Prose.Grammar
