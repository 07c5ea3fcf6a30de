import Mathlib.Data.List.Induction
import Prose.Proofs.Grammar.Course

/- Reports. A run of a rule notes things at indices, one after the other, and a reading keeps of
   them only the furthest index and what was expected there. Here the notes of a run are told in
   full, along the way the rule is put together: what an alternative noted before it failed
   comes before the notes of the next one, and a result that was kept is taken without any
   notes. What a reading keeps is what these notes come to. -/
namespace Prose.Grammar

open Rule

variable {α β : Type} {p : Phrase}

/-- The notes that a run of a rule makes, in their order. -/
inductive Reports (p : Phrase) : {α : Type} → Rule α → Progress → List Note → Prop where
  | look {α : Type} {f : Nat → Option α} {g : Nat → Nat} {s : Progress} :
      Reports p (fun s => (f s.pos, { s with pos := g s.pos })) s []
  | fail {α : Type} {what : String} {s : Progress} :
      Reports p (Rule.fail what : Rule α) s [(s.pos, what)]
  | stops {α β : Type} {x : Rule α} {f : α → Rule β} {s t : Progress} {ns : List Note}
      (hx : Reports p x s ns) (h : x s = (none, t)) : Reports p (x >>= f) s ns
  | goesOn {α β : Type} {x : Rule α} {f : α → Rule β} {s t : Progress} {a : α} {ns ms : List Note}
      (hx : Reports p x s ns) (h : x s = (some a, t)) (hf : Reports p (f a) t ms) :
      Reports p (x >>= f) s (ns ++ ms)
  | attempt {α : Type} {x : Rule α} {s : Progress} {ns : List Note} (hx : Reports p x s ns) :
      Reports p (Rule.attempt x) s ns
  | outcome {α : Type} {x : Rule α} {s : Progress} {ns : List Note} (hx : Reports p x s ns) :
      Reports p (Rule.outcome x) s ns
  | nothing {α : Type} {s : Progress} : Reports p (firstOf ([] : List (Rule α))) s []
  | first {α : Type} {x : Rule α} {xs : List (Rule α)} {s t : Progress} {a : α} {ns : List Note}
      (hx : Reports p x s ns) (h : Rule.attempt x s = (some a, t)) : Reports p (firstOf (x :: xs)) s ns
  | later {α : Type} {x : Rule α} {xs : List (Rule α)} {s t : Progress} {ns ms : List Note}
      (hx : Reports p x s ns) (h : Rule.attempt x s = (none, t)) (hxs : Reports p (firstOf xs) t ms) :
      Reports p (firstOf (x :: xs)) s (ns ++ ms)
  | keptExpression {k : Kept} {x : Rule Expr} {s : Progress} {r : Result Expr}
      (hmemoize : p.memoize = true) (hr : s.expressions.lookup (k, s.pos) = some r) :
      Reports p (p.keptExpression k x) s []
  | newExpression {k : Kept} {x : Rule Expr} {s : Progress} {ns : List Note}
      (hnew : p.memoize = true → s.expressions.lookup (k, s.pos) = none) (hx : Reports p x s ns) :
      Reports p (p.keptExpression k x) s ns
  | keptReference {room : Nat} {x : Rule Reference} {s : Progress} {r : Result Reference}
      (hmemoize : p.memoize = true) (hr : s.references.lookup (s.pos, room) = some r) :
      Reports p (p.keptReference room x) s []
  | newReference {room : Nat} {x : Rule Reference} {s : Progress} {ns : List Note}
      (hnew : p.memoize = true → s.references.lookup (s.pos, room) = none) (hx : Reports p x s ns) :
      Reports p (p.keptReference room x) s ns

/-! What a reading keeps of its notes. -/

namespace Progress

variable {s t : Progress} {n : Note} {ns ms : List Note}

/-- The furthest index at which something was noted, and what was expected there. -/
def noted (s : Progress) : Nat × List String := (s.furthest, s.expected)

theorem noted_note (h : s.noted = t.noted) : (s.note n).noted = (t.note n).noted := by
  obtain ⟨hfurthest, hexpected⟩ := Prod.mk.inj h
  simp only [noted, note, expectedAfter, hfurthest, hexpected]

theorem noted_noteAll (h : s.noted = t.noted) : (s.noteAll ns).noted = (t.noteAll ns).noted := by
  induction ns generalizing s t with
  | nil => exact h
  | cons n ns ih => exact ih (noted_note h)

end Progress

/-- Running a rule through, and keeping what it gave if the store does not touch the notes,
    notes what the rule notes. -/
theorem noted_attempt (x : Rule α) (s : Progress) : (Rule.attempt x s).2.noted = (x s).2.noted := by
  rcases hx : x s with ⟨_ | a, t⟩
  · rw [attempt_none hx]
    rfl
  · rw [attempt_some hx]

theorem noted_restore (r : Result α) (s : Progress) : (Phrase.restore r s).2.noted = s.noted := by
  rcases r with _ | ⟨a, stop⟩ <;> rfl

theorem noted_keep {store : Progress → Result α → Progress}
    (hstore : ∀ t r, (store t r).noted = t.noted) (x : Rule α) (s : Progress) :
    (Phrase.keep store x s).2.noted = (x s).2.noted := by
  rw [keep_eq, hstore, noted_attempt]

/-- What is noted behind a run is what was noted before with the notes of the run. -/
theorem Reports.noted {x : Rule α} {s : Progress} {ns : List Note} (h : Reports p x s ns) :
    (x s).2.noted = (s.noteAll ns).noted := by
  induction h with
  | look | nothing => rfl
  | fail => rw [Rule.fail, Progress.miss_eq_note]; rfl
  | stops _ h ih =>
    rw [h] at ih
    rw [bind_none h, ih]
  | goesOn _ h _ ihx ihf =>
    rw [h] at ihx
    rw [bind_some h, ihf, Progress.noteAll_append]
    exact Progress.noted_noteAll ihx
  | attempt _ ih => rw [noted_attempt, ih]
  | outcome _ ih => rw [outcome_eq, ih]
  | first _ h ih =>
    rw [firstOf_cons_some h, ← ih, ← noted_attempt, h]
  | later _ h _ ihx ihxs =>
    rw [firstOf_cons_none h, ihxs, Progress.noteAll_append]
    exact Progress.noted_noteAll (by rw [← ihx, ← noted_attempt, h])
  | keptExpression hmemoize hr =>
    rw [Phrase.keptExpression, if_pos hmemoize, hr]
    exact noted_restore _ _
  | newExpression hnew _ ih =>
    rw [Phrase.keptExpression]
    split
    · next hmemoize =>
      rw [hnew hmemoize, ← ih]
      refine noted_keep (fun _ _ => ?_) _ _
      rfl
    · rw [noted_attempt, ih]
  | keptReference hmemoize hr =>
    rw [Phrase.keptReference, if_pos hmemoize, hr]
    exact noted_restore _ _
  | newReference hnew _ ih =>
    rw [Phrase.keptReference]
    split
    · next hmemoize =>
      rw [hnew hmemoize, ← ih]
      refine noted_keep (fun _ _ => ?_) _ _
      rfl
    · rw [noted_attempt, ih]

/-! What notes come to from the start of a reading. -/

namespace Note

variable {n : Note} {ns : List Note} {i : Nat}

/-- What was expected at an index, in the order of the notes. -/
def said (ns : List Note) (i : Nat) : List String := (ns.filter fun n => n.1 = i).map Prod.snd

theorem said_concat_of_eq (h : n.1 = i) : said (ns ++ [n]) i = said ns i ++ [n.2] := by
  simp [said, h]

theorem said_concat_of_ne (h : n.1 ≠ i) : said (ns ++ [n]) i = said ns i := by
  simp [said, h]

theorem said_eq_nil (h : ∀ n ∈ ns, n.1 < i) : said ns i = [] := by
  rw [said, List.map_eq_nil_iff, List.filter_eq_nil_iff]
  intro n hn
  simpa using Nat.ne_of_lt (h n hn)

end Note

/-- One more item at the end is new or a duplicate. -/
theorem eraseDups_concat (ws : List String) (w : String) :
    (ws ++ [w]).eraseDups = if w ∈ ws then ws.eraseDups else ws.eraseDups ++ [w] := by
  rw [List.eraseDups_append]
  split
  · next hold =>
    have hnone : [w].removeAll ws = [] := by simp [List.removeAll, hold]
    rw [hnone, List.eraseDups_nil, List.append_nil]
  · next hnew =>
    have hone : [w].removeAll ws = [w] := by simp [List.removeAll, hnew]
    rw [hone]
    rfl

/-- From the start, what is noted at last is the furthest index of all notes, and what was
    expected there, each thing once and in the order of the notes. -/
theorem noted_start (ns : List Note) : ∃ i, (∀ n ∈ ns, n.1 ≤ i) ∧ (ns ≠ [] → ∃ n ∈ ns, n.1 = i) ∧
    (({} : Progress).noteAll ns).noted = (i, (Note.said ns i).eraseDups) := by
  induction ns using List.reverseRec with
  | nil => exact ⟨0, nofun, nofun, rfl⟩
  | append_singleton ns n ih =>
    obtain ⟨i, hle, hmem, hnoted⟩ := ih
    obtain ⟨hfurthest, hexpected⟩ := Prod.mk.inj hnoted
    have hall {j : Nat} (hij : i ≤ j) (hn : n.1 ≤ j) : ∀ m ∈ ns ++ [n], m.1 ≤ j :=
      List.forall_mem_append.2
        ⟨fun m hm => Nat.le_trans (hle m hm) hij, List.forall_mem_singleton.2 hn⟩
    have hlast : n ∈ ns ++ [n] := List.mem_append_right _ (List.mem_singleton_self n)
    have hstep : ({} : Progress).noteAll (ns ++ [n]) = (({} : Progress).noteAll ns).note n :=
      Progress.noteAll_append
    rw [hstep]
    simp only [Progress.noted, Progress.note, Progress.expectedAfter, hfurthest, hexpected]
    rcases Nat.lt_trichotomy i n.1 with hlt | heq | hgt
    · -- a note further on starts afresh
      have hnone : Note.said ns n.1 = [] :=
        Note.said_eq_nil fun m hm => Nat.lt_of_le_of_lt (hle m hm) hlt
      refine ⟨n.1, hall (Nat.le_of_lt hlt) (Nat.le_refl _), fun _ => ⟨n, hlast, rfl⟩, ?_⟩
      rw [if_pos hlt, Nat.max_eq_right (Nat.le_of_lt hlt), Note.said_concat_of_eq rfl, hnone]
      rfl
    · -- a note at the same index adds what is new
      subst heq
      refine ⟨n.1, hall (Nat.le_refl _) (Nat.le_refl _), fun _ => ⟨n, hlast, rfl⟩, ?_⟩
      rw [if_neg (Nat.lt_irrefl _), Nat.max_self, Note.said_concat_of_eq rfl, eraseDups_concat]
      by_cases hold : n.2 ∈ Note.said ns n.1 <;> simp [hold]
    · -- a note less far on is lost
      have hmore : ∃ m ∈ ns, m.1 = i := by
        refine hmem fun hnil => ?_
        rw [hnil] at hfurthest
        exact Nat.not_lt_zero _ (Nat.lt_of_lt_of_eq hgt hfurthest.symm)
      obtain ⟨m, hm, hi⟩ := hmore
      refine ⟨i, hall (Nat.le_refl _) (Nat.le_of_lt hgt), fun _ => ⟨m, List.mem_append_left _ hm, hi⟩, ?_⟩
      rw [if_neg (Nat.lt_asymm hgt), if_neg fun h => Nat.ne_of_lt hgt h.1,
        Nat.max_eq_left (Nat.le_of_lt hgt), Note.said_concat_of_ne (Nat.ne_of_lt hgt)]

end Prose.Grammar
