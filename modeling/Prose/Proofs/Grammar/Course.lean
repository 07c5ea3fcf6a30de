import Prose.Grammar.Sentence

/- Courses. A rule that keeps no results does the same from one cursor every time:
   it gives the same value, stops at the same index and notes the same things,
   whatever was noted before. Such a rule is called steady, and what it does from
   an index is its course. What a note can still change is only what was noted
   less far; once a note is known, noting it again does nothing. -/
namespace Prose.Grammar

open Rule

/-- Something that was expected at an index. -/
abbrev Note := Nat × String

namespace Progress

/-- What is expected at the furthest index after one more note. -/
def expectedAfter (s : Progress) (n : Note) : List String :=
  if s.furthest < n.1 then [n.2]
  else if n.1 = s.furthest ∧ n.2 ∉ s.expected then s.expected ++ [n.2]
  else s.expected

/-- Notes something at an index, wherever the cursor is. -/
def note (s : Progress) (n : Note) : Progress :=
  { s with furthest := max s.furthest n.1, expected := s.expectedAfter n }

/-- Notes some things, one after the other. -/
def noteAll (s : Progress) (ns : List Note) : Progress := ns.foldl note s

/-- The progress with the cursor at an index. -/
def moved (s : Progress) (i : Nat) : Progress := { s with pos := i }

/-- The progress without its kept results. -/
def plain (s : Progress) : Progress := { s with expressions := [], references := [] }

/-- A note that would change nothing any more. -/
def Knows (s : Progress) (n : Note) : Prop :=
  n.1 < s.furthest ∨ n.1 = s.furthest ∧ n.2 ∈ s.expected

variable {s : Progress} {n m : Note} {ns ms : List Note} {what : String} {i j : Nat}

/-- Failing at the cursor notes something there. -/
theorem miss_eq_note : s.miss what = s.note (s.pos, what) := by
  simp only [miss, note, expectedAfter]
  by_cases hlt : s.furthest < s.pos
  · simp [hlt, Nat.max_eq_right (Nat.le_of_lt hlt)]
  · have hmax : max s.furthest s.pos = s.furthest := Nat.max_eq_left (Nat.not_lt.1 hlt)
    simp only [hlt, if_false, hmax]
    split <;> rfl

@[simp] theorem moved_pos : (s.moved i).pos = i := rfl

@[simp] theorem moved_moved : (s.moved i).moved j = s.moved j := rfl

theorem noteAll_moved : (s.moved i).noteAll ns = (s.noteAll ns).moved i := by
  induction ns generalizing s with
  | nil => rfl
  | cons n ns ih => exact ih (s := s.note n)

theorem noteAll_append : s.noteAll (ns ++ ms) = (s.noteAll ns).noteAll ms :=
  List.foldl_append ..

/-! Knowing a note. -/

/-- A known note changes nothing. -/
theorem note_of_knows (h : s.Knows n) : s.note n = s := by
  have hle : n.1 ≤ s.furthest := by rcases h with h | h <;> omega
  have hold : ¬(n.1 = s.furthest ∧ n.2 ∉ s.expected) := by
    intro hread
    obtain ⟨heq, hnew⟩ := hread
    rcases h with h | h
    · omega
    · exact hnew h.2
  simp only [note, expectedAfter, if_neg (Nat.not_lt.2 hle), if_neg hold, Nat.max_eq_left hle]

theorem knows_note_self : (s.note n).Knows n := by
  simp only [note, Knows, expectedAfter]
  by_cases hlt : s.furthest < n.1
  · exact .inr ⟨(Nat.max_eq_right (Nat.le_of_lt hlt)).symm, by simp [hlt]⟩
  · rw [if_neg hlt, Nat.max_eq_left (Nat.not_lt.1 hlt)]
    by_cases heq : n.1 = s.furthest
    · refine .inr ⟨heq, ?_⟩
      by_cases hmem : n.2 ∈ s.expected <;> simp [heq, hmem]
    · exact .inl (by omega)

/-- What is known stays known. -/
theorem Knows.note (h : s.Knows m) : (s.note n).Knows m := by
  simp only [Progress.note, Knows, expectedAfter] at h ⊢
  by_cases hlt : s.furthest < n.1
  · exact .inl (by omega)
  · rw [if_neg hlt, Nat.max_eq_left (Nat.not_lt.1 hlt)]
    rcases h with h | ⟨heq, hmem⟩
    · exact .inl h
    · refine .inr ⟨heq, ?_⟩
      split
      · exact List.mem_append_left _ hmem
      · exact hmem

theorem Knows.noteAll (h : s.Knows m) : (s.noteAll ns).Knows m := by
  induction ns generalizing s with
  | nil => exact h
  | cons n ns ih => exact ih h.note

theorem knows_noteAll : ∀ n ∈ ns, (s.noteAll ns).Knows n := by
  induction ns generalizing s with
  | nil => exact fun n hn => absurd hn List.not_mem_nil
  | cons m ns ih =>
    intro n hn
    rcases List.mem_cons.1 hn with rfl | hn
    · exact (knows_note_self (s := s)).noteAll
    · exact ih n hn

theorem noteAll_of_knows (h : ∀ n ∈ ns, s.Knows n) : s.noteAll ns = s := by
  induction ns with
  | nil => rfl
  | cons m ns ih =>
    simp only [Progress.noteAll, List.foldl_cons, note_of_knows (h m List.mem_cons_self)]
    exact ih fun n hn => h n (List.mem_cons_of_mem _ hn)

end Progress

variable {α β : Type}

/-! What rules do from one progress. -/

namespace Rule

variable {x : Rule α} {f : α → Rule β} {xs : List (Rule α)} {s t : Progress} {a : α}

theorem bind_some (h : x s = (some a, t)) : (x >>= f) s = f a t := by
  simp only [bind, h]

theorem bind_none (h : x s = (none, t)) : (x >>= f) s = (none, t) := by
  simp only [bind, h]

theorem attempt_some (h : x s = (some a, t)) : attempt x s = (some a, t) := by
  simp only [attempt, h]

theorem attempt_none (h : x s = (none, t)) : attempt x s = (none, t.moved s.pos) := by
  simp only [attempt, h]
  rfl

/-- A rule that is attempted and fails leaves the cursor where it was. -/
theorem attempt_pos (h : attempt x s = (none, t)) : t.pos = s.pos := by
  rcases hx : x s with ⟨_ | a, u⟩
  · rw [attempt_none hx] at h
    rw [← (Prod.mk.inj h).2]
    rfl
  · rw [attempt_some hx] at h
    exact absurd (Prod.mk.inj h).1 (by simp)

theorem outcome_eq : outcome x s = (some (x s).1, (x s).2) := rfl

theorem firstOf_cons_some (h : attempt x s = (some a, t)) :
    firstOf (x :: xs) s = (some a, t) := by
  simp only [firstOf, h]

theorem firstOf_cons_none (h : attempt x s = (none, t)) : firstOf (x :: xs) s = firstOf xs t := by
  simp only [firstOf, h]

/-- Keeping a result changes neither the value nor the cursor nor the notes. -/
theorem keep_eq (store : Progress → Result α → Progress) :
    Phrase.keep store x s = ((attempt x s).1,
      store (attempt x s).2 ((attempt x s).1.map fun a => (a, (attempt x s).2.pos))) := by
  simp only [Phrase.keep]
  rcases attempt x s with ⟨_ | a, t⟩ <;> rfl

end Rule

/-- What a rule does from an index: what it gives, where it stops and what it notes. -/
structure Course (α : Type) where
  value : Option α
  stop : Nat
  notes : List Note

namespace Course

/-- Takes the course. -/
def run (c : Course α) (s : Progress) : Option α × Progress :=
  (c.value, (s.noteAll c.notes).moved c.stop)

/-- The result of the course, as it is kept. -/
def result (c : Course α) : Result α := c.value.map fun a => (a, c.stop)

end Course

namespace Rule

/-- From the index the rule always takes the course. -/
def Takes (x : Rule α) (i : Nat) (c : Course α) : Prop := ∀ s : Progress, s.pos = i → x s = c.run s

/-- From every index the rule has a course. -/
def Steady (x : Rule α) : Prop := ∀ i, ∃ c, x.Takes i c

namespace Steady

variable {x y : Rule α}

/-- A rule that looks at the cursor and moves it. -/
theorem look (f : Nat → Option α) (g : Nat → Nat) :
    Steady fun s => (f s.pos, { s with pos := g s.pos }) :=
  fun i => ⟨⟨f i, g i, []⟩, fun s h => by subst h; rfl⟩

theorem fail (what : String) : Steady (Rule.fail what : Rule α) :=
  fun i => ⟨⟨none, i, [(i, what)]⟩, fun s h => by
    subst h
    simp only [Rule.fail, Course.run, Progress.miss_eq_note]
    rfl⟩

theorem bind' {f : α → Rule β} (hx : Steady x) (hf : ∀ a, Steady (f a)) : Steady (x >>= f) := by
  intro i
  obtain ⟨c, hc⟩ := hx i
  cases ha : c.value with
  | none =>
    refine ⟨⟨none, c.stop, c.notes⟩, fun s hs => ?_⟩
    simp only [bind, hc s hs, Course.run, ha]
  | some a =>
    obtain ⟨d, hd⟩ := hf a c.stop
    refine ⟨⟨d.value, d.stop, c.notes ++ d.notes⟩, fun s hs => ?_⟩
    simp only [bind, hc s hs, Course.run, ha, hd _ Progress.moved_pos]
    rw [Progress.noteAll_moved, Progress.moved_moved, Progress.noteAll_append]

theorem attempt (hx : Steady x) : Steady (Rule.attempt x) := by
  intro i
  obtain ⟨c, hc⟩ := hx i
  cases ha : c.value with
  | none =>
    refine ⟨⟨none, i, c.notes⟩, fun s hs => ?_⟩
    subst hs
    simp only [Rule.attempt, hc s rfl, Course.run, ha]
    rfl
  | some a =>
    refine ⟨c, fun s hs => ?_⟩
    simp only [Rule.attempt, hc s hs, Course.run, ha]

theorem outcome (hx : Steady x) : Steady (Rule.outcome x) := by
  intro i
  obtain ⟨c, hc⟩ := hx i
  refine ⟨⟨some c.value, c.stop, c.notes⟩, fun s hs => ?_⟩
  simp only [Rule.outcome, hc s hs, Course.run]

theorem firstOf_cons {xs : List (Rule α)} (hx : Steady x) (hxs : Steady (firstOf xs)) :
    Steady (firstOf (x :: xs)) := by
  intro i
  -- what the first rule noted before it failed stays noted
  obtain ⟨c, hc⟩ := hx.attempt i
  cases ha : c.value with
  | none =>
    obtain ⟨d, hd⟩ := hxs c.stop
    refine ⟨⟨d.value, d.stop, c.notes ++ d.notes⟩, fun s hs => ?_⟩
    rw [firstOf_cons_none ((hc s hs).trans (by rw [Course.run, ha])), hd _ Progress.moved_pos]
    simp only [Course.run, Progress.noteAll_moved, Progress.moved_moved, Progress.noteAll_append]
  | some a =>
    refine ⟨c, fun s hs => ?_⟩
    rw [firstOf_cons_some ((hc s hs).trans (by rw [Course.run, ha])), Course.run, ha]

end Steady

end Rule

end Prose.Grammar
