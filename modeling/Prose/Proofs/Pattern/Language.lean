import Prose.Pattern

/- The texts that a pattern stands for. A match takes a text of the pattern's language, and
   whatever it notes is a part of that text which the noted item stands for. Which of
   several such texts is taken is another matter: that is decided by what is tried first. -/
namespace Prose.Pattern

open Prose.Text

variable {α : Type}

/-- A pattern stands for a text. -/
inductive Takes : Pattern → List Char → Prop where
  | empty : Takes .empty []
  | char {accepts : Char → Bool} {c : Char} (h : accepts c = true) : Takes (.char accepts) [c]
  | seq {p q : Pattern} {v w : List Char} (hp : Takes p v) (hq : Takes q w) :
      Takes (.seq p q) (v ++ w)
  | first {p q : Pattern} {w : List Char} (h : Takes p w) : Takes (.alt p q) w
  | second {p q : Pattern} {w : List Char} (h : Takes q w) : Takes (.alt p q) w
  | none {greedy : Bool} {p : Pattern} : Takes (.many greedy p) []
  | more {greedy : Bool} {p : Pattern} {v w : List Char} (hp : Takes p v)
      (hmore : Takes (.many greedy p) w) : Takes (.many greedy p) (v ++ w)
  | group {part : Part} {p : Pattern} {w : List Char} (h : Takes p w) : Takes (.group part p) w
  | stop : Takes .stop []

/-- What a pattern notes, each part with the item that stands for it. -/
def noted : Pattern → List (Part × Pattern)
  | empty | char _ | stop => []
  | seq p q | alt p q => p.noted ++ q.noted
  | many _ p => p.noted
  | group part p => (part, p) :: p.noted

/-- A match of the pattern that takes a text from an offset on notes an extent: that of a
    part of the text which an item of the pattern stands for. -/
def Notes (p : Pattern) (offset : Nat) (text : List Char) (extent : Part × Nat × Nat) : Prop :=
  ∃ item before v after, (extent.1, item) ∈ p.noted ∧ text = before ++ (v ++ after) ∧ item.Takes v ∧
    extent.2 = (offset + byteLength before, offset + byteLength before + byteLength v)

theorem Notes.mono {p q : Pattern} {offset : Nat} {w : List Char} {extent : Part × Nat × Nat}
    (h : p.Notes offset w extent) (hsub : p.noted ⊆ q.noted) (v u : List Char) {start : Nat}
    (hoffset : offset = start + byteLength v) : q.Notes start (v ++ (w ++ u)) extent := by
  obtain ⟨item, before, text, after, hitem, rfl, htakes, hextent⟩ := h
  refine ⟨item, v ++ before, text, after ++ u, hsub hitem, by simp, htakes, ?_⟩
  rw [hextent, hoffset, byteLength_append, ← Nat.add_assoc]

theorem Notes.imp {p q : Pattern} {offset : Nat} {w : List Char} {extent : Part × Nat × Nat}
    (h : p.Notes offset w extent) (hsub : p.noted ⊆ q.noted) : q.Notes offset w extent := by
  simpa using h.mono hsub [] [] rfl

/-- The place behind some characters. -/
def Place.after (place : Place) (taken rest : List Char) : Place :=
  ⟨rest, place.offset + byteLength taken⟩

/-- A match takes a text of the language from a place on and goes on behind it, with what it
    noted on top of the groups noted before. -/
def Takes.From (p : Pattern) (place : Place) (groups : Groups) (next : Next α) (r : α) : Prop :=
  ∃ w rest more, place.rest = w ++ rest ∧ p.Takes w ∧
    (∀ extent ∈ more, p.Notes place.offset w extent) ∧
    next (place.after w rest) (more ++ groups) = some r

variable {p q : Pattern} {place : Place} {groups : Groups} {next : Next α} {r : α}

/-! What is tried first. -/

theorem run_alt : (alt p q).run place groups next =
    (p.run place groups next).or (q.run place groups next) := by
  rw [run]
  cases p.run place groups next <;> rfl

theorem repeatWith_greedy (item : Place → Groups → Next α → Option α) (fuel : Nat) :
    repeatWith true item next (fuel + 1) place groups =
      (item place groups (repeatWith true item next fuel)).or (next place groups) := by
  simp only [repeatWith, if_true]
  cases item place groups (repeatWith true item next fuel) <;> rfl

theorem repeatWith_lazy (item : Place → Groups → Next α → Option α) (fuel : Nat) :
    repeatWith false item next (fuel + 1) place groups =
      (next place groups).or (item place groups (repeatWith false item next fuel)) := by
  simp only [repeatWith, Bool.false_eq_true, if_false]
  cases next place groups <;> rfl

/-! What is taken. -/

/-- One match behind the other. -/
theorem Takes.From.behind {s : Pattern} {between : Next α} (h : Takes.From p place groups between r)
    (hnext : ∀ {place : Place} {groups : Groups}, between place groups = some r →
      Takes.From q place groups next r)
    (htakes : ∀ {v w : List Char}, p.Takes v → q.Takes w → s.Takes (v ++ w))
    (hp : p.noted ⊆ s.noted) (hq : q.noted ⊆ s.noted) : Takes.From s place groups next r := by
  obtain ⟨v, rest, more, hrest, hv, hnoted, hgo⟩ := h
  obtain ⟨w, rest', more', rfl, hw, hnoted', hr⟩ := hnext hgo
  refine ⟨v ++ w, rest', more' ++ more, by rw [hrest, List.append_assoc], htakes hv hw, ?_, ?_⟩
  · refine List.forall_mem_append.2 ⟨fun extent hextent => ?_, fun extent hextent => ?_⟩
    · simpa using (hnoted' extent hextent).mono hq v [] rfl
    · exact (hnoted extent hextent).mono hp [] w (by simp)
  · rwa [Place.after, Place.after, Nat.add_assoc, ← byteLength_append, ← List.append_assoc] at hr

/-- Taking nothing. -/
theorem Takes.From.nothing (htakes : p.Takes []) (h : next place groups = some r) :
    Takes.From p place groups next r :=
  ⟨[], place.rest, [], rfl, htakes, nofun, h⟩

theorem takes_repeatWith {greedy : Bool}
    (hitem : ∀ {place : Place} {groups : Groups} {next : Next α},
      p.run place groups next = some r → Takes.From p place groups next r)
    (fuel : Nat) (h : repeatWith greedy p.run next fuel place groups = some r) :
    Takes.From (.many greedy p) place groups next r := by
  -- on the fuel: nothing more is taken, or one item and then what the rest takes
  induction fuel generalizing place groups with
  | zero => exact .nothing .none h
  | succ fuel ih =>
    have hmore (h : p.run place groups (repeatWith greedy p.run next fuel) = some r) :
        Takes.From (.many greedy p) place groups next r :=
      (hitem h).behind ih .more (List.Subset.refl _) (List.Subset.refl _)
    cases greedy with
    | true =>
      rw [repeatWith_greedy, Option.or_eq_some_iff] at h
      exact h.elim hmore fun h => .nothing .none h.2
    | false =>
      rw [repeatWith_lazy, Option.or_eq_some_iff] at h
      exact h.elim (.nothing .none) fun h => hmore h.2

/-- What a match takes is a text of the language of its pattern, and so is what it notes. -/
theorem takes_run (h : p.run place groups next = some r) : Takes.From p place groups next r := by
  induction p generalizing place groups next with
  | empty => exact .nothing .empty h
  | char accepts =>
    obtain ⟨rest, offset⟩ := place
    cases rest with
    | nil => cases h
    | cons c rest =>
      simp only [run] at h
      split at h
      · next hc => exact ⟨[c], rest, [], rfl, .char hc, nofun, h⟩
      · cases h
  | seq p q ihp ihq =>
    exact (ihp h).behind ihq .seq (List.subset_append_left ..) (List.subset_append_right ..)
  | alt p q ihp ihq =>
    rw [run_alt, Option.or_eq_some_iff] at h
    rcases h with h | ⟨-, h⟩
    · obtain ⟨w, rest, more, hrest, hw, hnoted, hr⟩ := ihp h
      refine ⟨w, rest, more, hrest, .first hw, fun extent hextent => ?_, hr⟩
      exact (hnoted extent hextent).imp (List.subset_append_left ..)
    · obtain ⟨w, rest, more, hrest, hw, hnoted, hr⟩ := ihq h
      refine ⟨w, rest, more, hrest, .second hw, fun extent hextent => ?_, hr⟩
      exact (hnoted extent hextent).imp (List.subset_append_right ..)
  | many greedy p ih => exact takes_repeatWith ih place.rest.length h
  | group part p ih =>
    obtain ⟨w, rest, more, hrest, hw, hnoted, hr⟩ := ih h
    refine ⟨w, rest, (part, place.offset, (place.after w rest).offset) :: more, hrest, .group hw, ?_, hr⟩
    refine List.forall_mem_cons.2 ⟨?_, fun extent hextent => ?_⟩
    · exact ⟨p, [], w, [], List.mem_cons_self, by simp, hw, by simp [Place.after]⟩
    · exact (hnoted extent hextent).imp (List.subset_cons_self ..)
  | stop =>
    rw [run] at h
    split at h
    · exact .nothing .stop h
    · cases h

/-! Texts of some patterns. -/

variable {v w : List Char}

theorem takes_empty (h : empty.Takes w) : w = [] := by
  cases h with
  | empty => rfl

theorem takes_char {accepts : Char → Bool} (h : (char accepts).Takes w) :
    ∃ c, w = [c] ∧ accepts c = true := by
  cases h with
  | char h => exact ⟨_, rfl, h⟩

theorem takes_seq (h : (seq p q).Takes w) : ∃ u v, w = u ++ v ∧ p.Takes u ∧ q.Takes v := by
  cases h with
  | seq hp hq => exact ⟨_, _, rfl, hp, hq⟩

theorem takes_alt (h : (alt p q).Takes w) : p.Takes w ∨ q.Takes w := by
  cases h with
  | first h => exact .inl h
  | second h => exact .inr h

theorem takes_group {part : Part} (h : (group part p).Takes w) : p.Takes w := by
  cases h with
  | group h => exact h

theorem takes_all_cons {ps : List Pattern} (h : (all (p :: ps)).Takes w) :
    ∃ u v, w = u ++ v ∧ p.Takes u ∧ (all ps).Takes v :=
  takes_seq h

/-- A repetition takes texts of its item, one behind the other. -/
theorem takes_many {greedy : Bool} (h : (many greedy p).Takes w) :
    ∃ ws : List (List Char), w = ws.flatten ∧ ∀ u ∈ ws, p.Takes u := by
  generalize hq : many greedy p = q at h
  induction h with
  | none => exact ⟨[], rfl, nofun⟩
  | more hp hmore _ ih =>
    obtain ⟨-, rfl⟩ := many.inj hq
    obtain ⟨ws, rfl, hws⟩ := ih hq
    exact ⟨_ :: ws, rfl, List.forall_mem_cons.2 ⟨hp, hws⟩⟩
  | empty | char | seq | first | second | group | stop => cases hq

/-- Blanks take some blanks. -/
theorem takes_blanks (h : blanks.Takes w) : w ≠ [] ∧ ∀ c ∈ w, isBlank c = true := by
  obtain ⟨first, more, rfl, hfirst, hmore⟩ := takes_seq h
  obtain ⟨c, rfl, hc⟩ := takes_char hfirst
  obtain ⟨ws, rfl, hws⟩ := takes_many hmore
  refine ⟨by simp, List.forall_mem_cons.2 ⟨hc, fun d hd => ?_⟩⟩
  obtain ⟨u, hu, hd⟩ := List.mem_flatten.1 hd
  obtain ⟨e, rfl, he⟩ := takes_char (hws u hu)
  exact List.mem_singleton.1 hd ▸ he

end Prose.Pattern
