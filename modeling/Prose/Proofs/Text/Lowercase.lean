import Prose.Text.Case

/- Lowercase texts. A text that was lowered is left alone by lowering: no run of the table
   takes a small form of another, and neither is one of them a capital sigma, whose form
   depends on the letters around it. -/
namespace Prose.Text

variable {c : Char} {m n : Nat} {before cs : List Char} {runs : List LowerRun}

/-- The code points that a run lowers. -/
def LowerRun.Takes (r : LowerRun) (n : Nat) : Prop :=
  r.first ≤ n ∧ n ≤ r.last ∧ (n - r.first) % r.step = 0

/-- The small forms of a run. -/
def LowerRun.Gives (r : LowerRun) (m : Nat) : Prop :=
  ∃ i ≤ r.last - r.first, i % r.step = 0 ∧ m = r.small + i

/-- The forms of `r` stand before or behind the code points of `q`, or between them. -/
def LowerRun.avoids (r q : LowerRun) : Bool :=
  r.small + (r.last - r.first) < q.first || q.last < r.small ||
    (q.step == 2 && (r.step == 2 || r.first == r.last) && (r.small + q.first) % 2 == 1)

theorem LowerRun.not_takes {r q : LowerRun} (h : r.avoids q = true) (hm : r.Gives m) :
    ¬ q.Takes m := by
  obtain ⟨i, hi, hstep, rfl⟩ := hm
  rintro ⟨hfirst, hlast, hq⟩
  simp only [avoids, Bool.or_eq_true, Bool.and_eq_true, decide_eq_true_eq, beq_iff_eq] at h
  rcases h with (h | h) | ⟨⟨hq2, hr2 | hr1⟩, hodd⟩
  · omega
  · omega
  · rw [hq2] at hq
    rw [hr2] at hstep
    omega
  · rw [hq2] at hq
    omega

/-- A code point is left alone, or its small form is one that a run gives. -/
theorem lowerCode_gives (runs : List LowerRun) (n : Nat) :
    lowerCode runs n = n ∨ ∃ r ∈ runs, r.Gives (lowerCode runs n) := by
  fun_induction lowerCode runs n with
  | case1 => exact .inl rfl
  | case2 => exact .inl rfl
  | case3 r later n hfirst hlast hstep =>
    have hle : n - r.first ≤ r.last - r.first := Nat.sub_le_sub_right hlast _
    exact .inr ⟨r, List.mem_cons_self, n - r.first, hle, hstep, rfl⟩
  | case4 r later n hfirst hlast hstep ih =>
    exact ih.imp_right fun ⟨r, hr, hn⟩ => ⟨r, List.mem_cons_of_mem _ hr, hn⟩
  | case5 r later n hfirst hlast ih =>
    exact ih.imp_right fun ⟨r, hr, hn⟩ => ⟨r, List.mem_cons_of_mem _ hr, hn⟩

theorem lowerCode_of_not_takes (h : ∀ q ∈ runs, ¬ q.Takes n) : lowerCode runs n = n := by
  induction runs with
  | nil => rfl
  | cons q later ih =>
    rw [List.forall_mem_cons] at h
    obtain ⟨hq, hlater⟩ := h
    rw [lowerCode]
    split
    · rfl
    · split
      · rw [if_neg fun hstep => hq ⟨by omega, by omega, hstep⟩, ih hlater]
      · exact ih hlater

/-- The forms of a run are characters. -/
def LowerRun.givesChars (r : LowerRun) : Bool :=
  r.small + (r.last - r.first) < 0xd800 ||
    (0xdfff < r.small && r.small + (r.last - r.first) < 0x110000)

/-- The letters with a form that no run gives: the dotted capital i and the sigma. -/
def oddLetters : List LowerRun := [⟨0x130, 0x130, 1, 0x69⟩, ⟨0x3a3, 0x3a3, 1, 0x3c3⟩]

theorem lowerRuns_avoid : ∀ r ∈ lowerRuns, r.givesChars = true ∧
    (∀ q ∈ lowerRuns, r.avoids q = true) ∧ ∀ q ∈ oddLetters, r.avoids q = true := by
  have hall : (lowerRuns.all fun r => r.givesChars && (lowerRuns.all r.avoids &&
      oddLetters.all r.avoids)) = true := by decide +kernel
  simpa only [List.all_eq_true, Bool.and_eq_true] using hall

/-- A character that lowering leaves alone, whatever stands around it. -/
def IsSmall (c : Char) : Prop := lowerChar c = [c] ∧ c.toNat ≠ 0x3a3

theorem toNat_ofNat (h : n.isValidChar) : (Char.ofNat n).toNat = n := by
  rw [Char.ofNat, dif_pos h]
  rfl

theorem LowerRun.isValidChar {r : LowerRun} (h : r.givesChars = true) (hm : r.Gives m) :
    m.isValidChar := by
  obtain ⟨i, hi, -, rfl⟩ := hm
  simp only [givesChars, Bool.or_eq_true, Bool.and_eq_true, decide_eq_true_eq] at h
  rw [Nat.isValidChar]
  omega

theorem isSmall_ofNat_of_gives {r : LowerRun} (hr : r ∈ lowerRuns) (hm : r.Gives m) :
    IsSmall (Char.ofNat m) := by
  obtain ⟨hchars, hruns, hodd⟩ := lowerRuns_avoid r hr
  have hnat := toNat_ofNat (LowerRun.isValidChar hchars hm)
  have hcode : lowerCode lowerRuns m = m :=
    lowerCode_of_not_takes fun q hq => LowerRun.not_takes (hruns q hq) hm
  have hletters : m ≠ 0x130 ∧ m ≠ 0x3a3 := by
    constructor <;> rintro rfl
    · exact LowerRun.not_takes (hodd _ List.mem_cons_self) hm ⟨by decide, by decide, by decide⟩
    · exact LowerRun.not_takes (hodd _ (List.mem_cons_of_mem _ List.mem_cons_self)) hm
        ⟨by decide, by decide, by decide⟩
  rw [IsSmall, lowerChar, hnat, if_neg hletters.1, hcode]
  exact ⟨rfl, hletters.2⟩

/-- What a character is lowered to is small. -/
theorem isSmall_of_mem_lowerChar (hc : c.toNat ≠ 0x3a3) : ∀ d ∈ lowerChar c, IsSmall d := by
  rw [lowerChar]
  split
  · rw [List.forall_mem_cons, List.forall_mem_singleton]
    exact ⟨⟨by decide +kernel, by decide⟩, ⟨by decide +kernel, by decide⟩⟩
  · next hdotted =>
    rw [List.forall_mem_singleton]
    rcases lowerCode_gives lowerRuns c.toNat with hsame | ⟨r, hr, hm⟩
    · rw [hsame, Char.ofNat_toNat]
      refine ⟨?_, hc⟩
      rw [lowerChar, if_neg hdotted, hsame, Char.ofNat_toNat]
    · exact isSmall_ofNat_of_gives hr hm

theorem isSmall_of_mem_lowerAfter : ∀ d ∈ lowerAfter before cs, IsSmall d := by
  induction cs generalizing before with
  | nil => exact fun d hd => absurd hd List.not_mem_nil
  | cons c rest ih =>
    rw [lowerAfter, List.forall_mem_append]
    refine ⟨?_, ih⟩
    split
    · -- both forms of the sigma are small
      rw [List.forall_mem_singleton]
      split <;> exact ⟨by decide +kernel, by decide⟩
    · next hsigma => exact isSmall_of_mem_lowerChar hsigma

theorem lowerAfter_of_isSmall (h : ∀ c ∈ cs, IsSmall c) : lowerAfter before cs = cs := by
  induction cs generalizing before with
  | nil => rfl
  | cons c rest ih =>
    rw [List.forall_mem_cons] at h
    obtain ⟨⟨hchar, hsigma⟩, hrest⟩ := h
    rw [lowerAfter, if_neg hsigma, hchar, ih hrest, List.singleton_append]

/-- Lowering a text twice is lowering it once. -/
theorem lower_lower (s : String) : lower (lower s) = lower s := by
  rw [lower, lower, String.toList_ofList, lowerAfter_of_isSmall isSmall_of_mem_lowerAfter]

/-- The dotted capital i is the only letter with a form of two characters. -/
theorem length_lowerAfter (h : ∀ c ∈ cs, c.toNat ≠ 0x130) :
    (lowerAfter before cs).length = cs.length := by
  induction cs generalizing before with
  | nil => rfl
  | cons c rest ih =>
    obtain ⟨hc, hrest⟩ := List.forall_mem_cons.1 h
    rw [lowerAfter, lowerChar, if_neg hc, List.length_append, ih hrest, List.length_cons,
      Nat.add_comm]
    split <;> rfl

end Prose.Text
