import Prose.LooseDeclaration
import Prose.Proofs.Pattern.Language
import Prose.Proofs.Text.Edge

/- What patterns do about blanks. Repeated blanks are taken as far as the rest allows, and
   a short something is taken no further than it must be. So something that stands between
   blanks and the end of a text neither starts nor ends with a blank, unless there is but
   one blank to take. -/
namespace Prose.Pattern

open Prose.Text

variable {α : Type} {place : Place} {groups : Groups} {next : Next α} {r : α}
  {gap rest : List Char} {part : Part}

/-- The patterns of two lists are matched one list behind the other. -/
theorem run_all_append (ps qs : List Pattern) :
    (all (ps ++ qs)).run place groups next =
      (all ps).run place groups fun place groups => (all qs).run place groups next := by
  induction ps generalizing place groups with
  | nil => rfl
  | cons p ps ih =>
    have hps : (fun place groups => (all (ps ++ qs)).run place groups next) =
        fun place groups => (all ps).run place groups fun place groups =>
          (all qs).run place groups next := by
      funext place groups
      exact ih
    exact congrArg (p.run place groups) hps

theorem Place.after_nil (h : place.rest = rest) : place.after [] rest = place := by
  rw [← h]
  rfl

theorem Place.after_cons (place : Place) (c : Char) (gap more rest : List Char) :
    (place.after [c] more).after gap rest = place.after (c :: gap) rest := by
  simp only [after, byteLength_cons, byteLength_nil, Nat.add_zero, Nat.add_assoc]

theorem run_char_eq_some {accepts : Char → Bool} (h : (char accepts).run place groups next = some r) :
    ∃ c more, place.rest = c :: more ∧ accepts c = true ∧ next (place.after [c] more) groups = some r := by
  rw [run] at h
  split at h
  · cases h
  · next c more hrest =>
    split at h
    · next hc => exact ⟨c, more, hrest, hc, h⟩
    · cases h

theorem run_char {accepts : Char → Bool} {c : Char} {more : List Char} (hrest : place.rest = c :: more)
    (hc : accepts c = true) :
    (char accepts).run place groups next = next (place.after [c] more) groups := by
  rw [run, hrest]
  simp only [hc, if_true]
  rfl

/-! Blanks, as many as there are. -/

/-- Where a greedy repetition matches nothing, neither does what follows it. -/
theorem eq_none_of_repeatWith {item : Place → Groups → Next α → Option α} {fuel : Nat}
    (h : repeatWith true item next fuel place groups = none) : next place groups = none := by
  cases fuel with
  | zero => exact h
  | succ fuel =>
    rw [repeatWith_greedy, Option.or_eq_none_iff] at h
    exact h.2

/-- Blanks are taken one further, if what follows lets them. -/
theorem greedy_blanks {fuel : Nat} (hfuel : place.rest.length ≤ fuel)
    (h : repeatWith true (char isBlank).run next fuel place groups = some r) :
    ∃ gap rest, place.rest = gap ++ rest ∧ (∀ c ∈ gap, isBlank c = true) ∧
      next (place.after gap rest) groups = some r ∧
      ∀ c more, rest = c :: more → isBlank c = true →
        next (place.after (gap ++ [c]) more) groups = none := by
  induction fuel generalizing place with
  | zero =>
    have hnil : place.rest = [] := List.length_eq_zero_iff.1 (Nat.le_zero.1 hfuel)
    exact ⟨[], [], hnil, nofun, by rwa [Place.after_nil hnil], nofun⟩
  | succ fuel ih =>
    rw [repeatWith_greedy, Option.or_eq_some_iff] at h
    rcases h with h | ⟨hnone, h⟩
    · obtain ⟨c, more, hrest, hc, hgo⟩ := run_char_eq_some h
      rw [hrest, List.length_cons] at hfuel
      obtain ⟨gap, rest, hmore, hgap, hnext, hlast⟩ := ih (Nat.le_of_succ_le_succ hfuel) hgo
      refine ⟨c :: gap, rest, ?_, List.forall_mem_cons.2 ⟨hc, hgap⟩, ?_, fun d ds hds hd => ?_⟩
      · rw [hrest, show more = gap ++ rest from hmore, List.cons_append]
      · rwa [Place.after_cons] at hnext
      · have hd := hlast d ds hds hd
        rwa [Place.after_cons] at hd
    · refine ⟨[], place.rest, rfl, nofun, h, fun c more hrest hc => ?_⟩
      rw [run_char hrest hc] at hnone
      exact eq_none_of_repeatWith hnone

theorem isSome_greedy_blanks {fuel : Nat} (hfuel : gap.length ≤ fuel) (hrest : place.rest = gap ++ rest)
    (hgap : ∀ c ∈ gap, isBlank c = true) (h : (next (place.after gap rest) groups).isSome = true) :
    (repeatWith true (char isBlank).run next fuel place groups).isSome = true := by
  induction gap generalizing fuel place with
  | nil =>
    have hplace : (next place groups).isSome = true := by
      rwa [Place.after_nil (show place.rest = rest from hrest)] at h
    cases hrun : repeatWith true (char isBlank).run next fuel place groups with
    | none =>
      rw [eq_none_of_repeatWith hrun] at hplace
      cases hplace
    | some r => rfl
  | cons c gap ih =>
    cases fuel with
    | zero => exact absurd hfuel (by simp)
    | succ fuel =>
      rw [repeatWith_greedy, Option.isSome_or, Bool.or_eq_true, run_char hrest (hgap c List.mem_cons_self)]
      left
      refine ih (Nat.le_of_succ_le_succ hfuel) rfl (fun d hd => hgap d (List.mem_cons_of_mem _ hd)) ?_
      rwa [Place.after_cons]

/-- What follows blanks is matched behind some of them, and not behind one more. -/
theorem run_maybeBlanks (h : maybeBlanks.run place groups next = some r) :
    ∃ gap rest, place.rest = gap ++ rest ∧ (∀ c ∈ gap, isBlank c = true) ∧
      next (place.after gap rest) groups = some r ∧
      ∀ c more, rest = c :: more → isBlank c = true →
        next (place.after (gap ++ [c]) more) groups = none :=
  greedy_blanks (Nat.le_refl _) h

theorem isSome_maybeBlanks (hrest : place.rest = gap ++ rest) (hgap : ∀ c ∈ gap, isBlank c = true)
    (h : (next (place.after gap rest) groups).isSome = true) :
    (maybeBlanks.run place groups next).isSome = true :=
  isSome_greedy_blanks (by simp [hrest]) hrest hgap h

theorem run_blanks_eq : blanks.run place groups next =
    (char isBlank).run place groups fun place groups => maybeBlanks.run place groups next := rfl

theorem run_blanks (h : blanks.run place groups next = some r) :
    ∃ gap rest, gap ≠ [] ∧ place.rest = gap ++ rest ∧ (∀ c ∈ gap, isBlank c = true) ∧
      next (place.after gap rest) groups = some r ∧
      ∀ c more, rest = c :: more → isBlank c = true →
        next (place.after (gap ++ [c]) more) groups = none := by
  rw [run_blanks_eq] at h
  obtain ⟨c, more, hrest, hc, hgo⟩ := run_char_eq_some h
  obtain ⟨gap, rest, hmore, hgap, hnext, hlast⟩ := run_maybeBlanks hgo
  refine ⟨c :: gap, rest, by simp, ?_, List.forall_mem_cons.2 ⟨hc, hgap⟩, ?_, fun d ds hds hd => ?_⟩
  · rw [hrest, show more = gap ++ rest from hmore, List.cons_append]
  · rwa [Place.after_cons] at hnext
  · have hd := hlast d ds hds hd
    rwa [Place.after_cons] at hd

theorem isSome_blanks (hne : gap ≠ []) (hrest : place.rest = gap ++ rest)
    (hgap : ∀ c ∈ gap, isBlank c = true) (h : (next (place.after gap rest) groups).isSome = true) :
    (blanks.run place groups next).isSome = true := by
  obtain ⟨c, gap, rfl⟩ := List.exists_cons_of_ne_nil hne
  rw [run_blanks_eq, run_char hrest (hgap c List.mem_cons_self)]
  refine isSome_maybeBlanks rfl (fun d hd => hgap d (List.mem_cons_of_mem _ hd)) ?_
  rwa [Place.after_cons]

/-- One blank more before blanks changes nothing. -/
theorem isSome_maybeBlanks_cons {c : Char} (hrest : place.rest = c :: rest) (hc : isBlank c = true)
    (h : (maybeBlanks.run (place.after [c] rest) groups next).isSome = true) :
    (maybeBlanks.run place groups next).isSome = true := by
  obtain ⟨r, hr⟩ := Option.isSome_iff_exists.1 h
  obtain ⟨gap, behind, hbehind, hgap, hgo, -⟩ := run_maybeBlanks hr
  rw [Place.after_cons] at hgo
  have hmore : place.rest = (c :: gap) ++ behind := by
    rw [hrest, show rest = gap ++ behind from hbehind, List.cons_append]
  refine isSome_maybeBlanks hmore (List.forall_mem_cons.2 ⟨hc, hgap⟩) ?_
  rw [hgo]
  rfl

theorem isSome_blanks_cons {c : Char} (hrest : place.rest = c :: rest) (hc : isBlank c = true)
    (h : (blanks.run (place.after [c] rest) groups next).isSome = true) :
    (blanks.run place groups next).isSome = true := by
  obtain ⟨r, hr⟩ := Option.isSome_iff_exists.1 h
  obtain ⟨gap, behind, -, hbehind, hgap, hgo, -⟩ := run_blanks hr
  rw [Place.after_cons] at hgo
  have hmore : place.rest = (c :: gap) ++ behind := by
    rw [hrest, show rest = gap ++ behind from hbehind, List.cons_append]
  refine isSome_blanks (by simp) hmore (List.forall_mem_cons.2 ⟨hc, hgap⟩) ?_
  rw [hgo]
  rfl

/-! Something, as short as it can be. -/

/-- What follows a last part is only matched where nothing but blanks is left. -/
def OnlyBlanksLeft (next : Next α) : Prop :=
  ∀ place groups, (next place groups).isSome = true ↔ ∀ c ∈ place.rest, isBlank c = true

theorem lazy_any {fuel : Nat} (hnext : OnlyBlanksLeft next)
    (h : repeatWith false any.run next fuel place groups = some r) :
    ∃ taken rest, place.rest = taken ++ rest ∧ next (place.after taken rest) groups = some r ∧
      (taken = [] ∨ EndsSolid taken) := by
  have hstop {place : Place} (h : next place groups = some r) :
      ∃ taken rest, place.rest = taken ++ rest ∧ next (place.after taken rest) groups = some r ∧
        (taken = [] ∨ EndsSolid taken) :=
    ⟨[], place.rest, rfl, h, .inl rfl⟩
  induction fuel generalizing place with
  | zero => exact hstop h
  | succ fuel ih =>
    rw [repeatWith_lazy, Option.or_eq_some_iff] at h
    rcases h with h | ⟨hnone, h⟩
    · exact hstop h
    · obtain ⟨c, more, hrest, -, hgo⟩ := run_char_eq_some h
      obtain ⟨taken, rest, hmore, hr, hend⟩ := ih hgo
      have hmore : more = taken ++ rest := hmore
      rw [Place.after_cons] at hr
      refine ⟨c :: taken, rest, by rw [hrest, hmore, List.cons_append], hr, .inr ?_⟩
      rcases hend with rfl | hend
      · -- the rest is blank, but it is not with the character before it
        have hblank : ∀ d ∈ rest, isBlank d = true := (hnext _ _).1 (by rw [hr]; rfl)
        refine ⟨[], c, rfl, ?_⟩
        rw [Bool.eq_false_iff]
        intro hc
        have hsome : (next place groups).isSome = true := by
          rw [hnext, hrest, hmore]
          exact List.forall_mem_cons.2 ⟨hc, hblank⟩
        rw [hnone] at hsome
        cases hsome
      · exact hend.prepend [c]

theorem isSome_lazy_any {fuel : Nat} (hnext : OnlyBlanksLeft next) (hfuel : place.rest.length ≤ fuel) :
    (repeatWith false any.run next fuel place groups).isSome = true := by
  induction fuel generalizing place with
  | zero =>
    have hnil : place.rest = [] := List.length_eq_zero_iff.1 (Nat.le_zero.1 hfuel)
    exact (hnext _ _).2 (by rw [hnil]; exact nofun)
  | succ fuel ih =>
    rw [repeatWith_lazy, Option.isSome_or, Bool.or_eq_true]
    cases hrest : place.rest with
    | nil => exact .inl ((hnext _ _).2 (by rw [hrest]; exact nofun))
    | cons c more =>
      right
      rw [any, run_char hrest rfl]
      rw [hrest, List.length_cons] at hfuel
      exact ih (Nat.le_of_succ_le_succ hfuel)

theorem run_something_eq : (group part LooseDeclaration.something).run place groups next =
    any.run place groups fun after groups => repeatWith false any.run
      (fun after groups => next after ((part, place.offset, after.offset) :: groups))
      after.rest.length after groups := rfl

theorem run_something (hnext : OnlyBlanksLeft next)
    (h : (group part LooseDeclaration.something).run place groups next = some r) :
    ∃ c taken rest, place.rest = c :: (taken ++ rest) ∧
      next (place.after (c :: taken) rest)
        ((part, place.offset, place.offset + byteLength (c :: taken)) :: groups) = some r ∧
      (taken = [] ∨ EndsSolid taken) := by
  rw [run_something_eq] at h
  obtain ⟨c, more, hrest, -, hgo⟩ := run_char_eq_some h
  obtain ⟨taken, rest, hmore, hr, hend⟩ := lazy_any (fun place groups => hnext place _) hgo
  rw [Place.after_cons] at hr
  exact ⟨c, taken, rest, by rw [hrest, show more = taken ++ rest from hmore], hr, hend⟩

theorem isSome_something (hnext : OnlyBlanksLeft next) (hne : place.rest ≠ []) :
    ((group part LooseDeclaration.something).run place groups next).isSome = true := by
  obtain ⟨c, more, hrest⟩ := List.exists_cons_of_ne_nil hne
  rw [run_something_eq, any, run_char hrest rfl]
  exact isSome_lazy_any (fun place groups => hnext place _) (Nat.le_refl _)

/-- One blank, or a text that neither starts nor ends with one. -/
def Something (text : List Char) : Prop :=
  (∃ c, text = [c] ∧ isBlank c = true) ∨ StartsSolid text ∧ EndsSolid text

/-- What stands at the end and starts with no blank does not end with one either. -/
theorem Something.endsSolid {before part : List Char} (h : Something (before ++ part))
    (hpart : StartsSolid part) : EndsSolid part := by
  obtain ⟨d, rest, rfl, hd⟩ := hpart
  rcases h with ⟨c, hc, hblank⟩ | ⟨-, hend⟩
  · have hmem : d ∈ [c] := by simp [← hc]
    rw [List.mem_singleton.1 hmem, hblank] at hd
    cases hd
  · exact hend.of_append (by simp)

/-- Something behind blanks, with nothing but blanks behind it, is not more than needed. -/
theorem run_blanks_something (hnext : OnlyBlanksLeft next)
    (h : (all [blanks, group part LooseDeclaration.something]).run place groups next = some r) :
    ∃ gap taken rest, place.rest = gap ++ (taken ++ rest) ∧
      next (place.after (gap ++ taken) rest) ((part, place.offset + byteLength gap,
        place.offset + byteLength gap + byteLength taken) :: groups) = some r ∧
      Something taken := by
  obtain ⟨gap, behind, -, hrest, -, hgo, hlast⟩ := run_blanks h
  obtain ⟨c, taken, rest, hbehind, hr, hend⟩ := run_something hnext hgo
  have hbehind : behind = c :: (taken ++ rest) := hbehind
  refine ⟨gap, c :: taken, rest, by rw [hrest, hbehind, List.cons_append], ?_, ?_⟩
  · rw [show place.after (gap ++ c :: taken) rest = (place.after gap behind).after (c :: taken) rest by
      simp only [Place.after, byteLength_append, Nat.add_assoc]]
    exact hr
  · cases hc : isBlank c with
    | true =>
      -- one blank more was not taken from it, so there is no more to match
      have hnone : (group part LooseDeclaration.something).run
          (place.after (gap ++ [c]) (taken ++ rest)) groups next = none :=
        hlast c (taken ++ rest) hbehind hc
      have hnil : taken ++ rest = [] := by
        cases hmore : taken ++ rest with
        | nil => rfl
        | cons d more =>
          have hsome : ((group part LooseDeclaration.something).run
              (place.after (gap ++ [c]) (taken ++ rest)) groups next).isSome = true :=
            isSome_something hnext (by simp [Place.after, hmore])
          rw [hnone] at hsome
          cases hsome
      exact .inl ⟨c, by rw [(List.append_eq_nil_iff.1 hnil).1], hc⟩
    | false =>
      refine .inr ⟨⟨c, taken, rfl, hc⟩, ?_⟩
      rcases hend with rfl | hend
      · exact ⟨[], c, rfl, hc⟩
      · exact hend.prepend [c]

theorem run_stop (h : stop.run place groups next = some r) :
    place.rest = [] ∧ next place groups = some r := by
  rw [run] at h
  split at h
  · next hrest => exact ⟨List.isEmpty_iff.1 hrest, h⟩
  · cases h

/-- At the end of a text only blanks are left, and nothing is noted of them. -/
theorem run_end (h : (all [maybeBlanks, stop]).run place groups next = some r) :
    (∀ c ∈ place.rest, isBlank c = true) ∧ next (place.after place.rest []) groups = some r := by
  obtain ⟨gap, rest, hrest, hgap, hgo, -⟩ := run_maybeBlanks h
  obtain ⟨hnil, hr⟩ := run_stop hgo
  obtain rfl : rest = [] := hnil
  rw [List.append_nil] at hrest
  rw [hrest]
  exact ⟨hgap, hr⟩

theorem onlyBlanksLeft_end (hnext : ∀ place groups, (next place groups).isSome = true) :
    OnlyBlanksLeft fun place groups => (all [maybeBlanks, stop]).run place groups next := by
  intro place groups
  constructor
  · intro h
    obtain ⟨r, hr⟩ := Option.isSome_iff_exists.1 h
    exact (run_end hr).1
  · intro h
    exact isSome_maybeBlanks (List.append_nil _).symm h (hnext _ _)

end Prose.Pattern
