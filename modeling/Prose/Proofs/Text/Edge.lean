import Prose.Pattern
import Prose.Proofs.Text.Cut

/- Edges: the offsets next to a character that is no blank. Letters, digits and what else
   words are made of are no blanks, so that a text can be cut at both ends of a word even
   where blanks of it have been replaced. -/
namespace Prose.Text

variable {c : Char}

/-! Characters that are no blanks. -/

theorem CodeRuns.exists_of_contains {runs : CodeRuns} {n : Nat} (h : runs.contains n = true) :
    ∃ run ∈ runs, run.1 ≤ n ∧ n ≤ run.2 := by
  fun_induction CodeRuns.contains runs n with
  | case1 => cases h
  | case2 => cases h
  | case3 n first last later hfirst hlast =>
    exact ⟨_, List.mem_cons_self, Nat.le_of_not_lt hfirst, hlast⟩
  | case4 n first last later hfirst hlast ih =>
    obtain ⟨run, hrun, hn⟩ := ih h
    exact ⟨run, List.mem_cons_of_mem _ hrun, hn⟩

/-- No code point is in a run of both sets. -/
def CodeRuns.apart (runs others : CodeRuns) : Bool :=
  runs.all fun run => others.all fun other => run.2 < other.1 || other.2 < run.1

theorem CodeRuns.contains_of_apart {runs : CodeRuns} (others : CodeRuns)
    (happart : apart runs others = true)
    {n : Nat} (h : others.contains n = true) : runs.contains n = false := by
  rw [Bool.eq_false_iff]
  intro hruns
  obtain ⟨run, hrun, hn⟩ := exists_of_contains hruns
  obtain ⟨other, hother, hn'⟩ := exists_of_contains h
  have hpair := List.all_eq_true.1 (List.all_eq_true.1 happart run hrun) other hother
  simp only [Bool.or_eq_true, decide_eq_true_eq] at hpair
  omega

theorem isBlank_of_isLetterOrNumeral (h : isLetterOrNumeral c = true) : isBlank c = false := by
  rw [isLetterOrNumeral, Bool.or_eq_true] at h
  rcases h with h | h
  · exact CodeRuns.contains_of_apart letterRuns (by decide +kernel) h
  · exact CodeRuns.contains_of_apart numeralRuns (by decide +kernel) h

theorem isBlank_of_isWordChar (h : isWordChar c = true) : isBlank c = false :=
  CodeRuns.contains_of_apart wordRuns (by decide +kernel) h

/-- The printable characters of the basic alphabet, less the space. -/
theorem isBlank_of_between (hfirst : '!' ≤ c) (hlast : c ≤ '~') : isBlank c = false := by
  have hlow : 33 ≤ c.toNat := hfirst
  have hhigh : c.toNat ≤ 126 := hlast
  refine CodeRuns.contains_of_apart [(33, 126)] (by decide) ?_
  rw [CodeRuns.contains, if_neg (by omega), if_pos hhigh]

theorem isBlank_of_isDecimalDigit (h : isDecimalDigit c = true) : isBlank c = false := by
  simp only [isDecimalDigit, Bool.and_eq_true, decide_eq_true_eq] at h
  exact isBlank_of_between (Char.le_trans (by decide) h.1) (Char.le_trans h.2 (by decide))

theorem isBlank_of_isHexDigit (h : isHexDigit c = true) : isBlank c = false := by
  simp only [isHexDigit, Bool.or_eq_true, Bool.and_eq_true, decide_eq_true_eq] at h
  rcases h with (h | h) | h
  · exact isBlank_of_isDecimalDigit h
  · exact isBlank_of_between (Char.le_trans (by decide) h.1) (Char.le_trans h.2 (by decide))
  · exact isBlank_of_between (Char.le_trans (by decide) h.1) (Char.le_trans h.2 (by decide))

theorem toLower_of_isBlank (h : isBlank c = true) : c.toLower = c := by
  refine dif_neg ?_
  rintro ⟨hfirst, hlast⟩
  have hsolid : isBlank c = false :=
    isBlank_of_between (Char.le_trans (by decide) hfirst) (Char.le_trans hlast (by decide))
  rw [h] at hsolid
  cases hsolid

theorem isBlank_of_isBasicLetter (h : Pattern.isBasicLetter c = true) : isBlank c = false := by
  rw [Bool.eq_false_iff]
  intro hblank
  simp only [Pattern.isBasicLetter, toLower_of_isBlank hblank, Bool.or_eq_true, Bool.and_eq_true,
    decide_eq_true_eq, beq_iff_eq] at h
  rcases h with (h | rfl) | rfl
  · have hsolid : isBlank c = false :=
      isBlank_of_between (Char.le_trans (by decide) h.1) (Char.le_trans h.2 (by decide))
    rw [hblank] at hsolid
    cases hsolid
  · exact absurd hblank (by decide)
  · exact absurd hblank (by decide)

theorem isBlank_of_isFormOf {letter : Char} (hletter : isBlank letter = false)
    (h : Pattern.isFormOf letter c = true) : isBlank c = false := by
  rw [Bool.eq_false_iff]
  intro hblank
  simp only [Pattern.isFormOf, toLower_of_isBlank hblank, Bool.or_eq_true, Bool.and_eq_true,
    beq_iff_eq] at h
  rcases h with (rfl | ⟨-, rfl⟩) | ⟨-, rfl⟩
  · rw [hletter] at hblank
    cases hblank
  · exact absurd hblank (by decide)
  · exact absurd hblank (by decide)

/-! Edges. -/

/-- An offset before or behind a character that is no blank. -/
def Edge (cs : List Char) (n : Nat) : Prop :=
  ∃ before c after, cs = before ++ c :: after ∧ isBlank c = false ∧
    (n = byteLength before ∨ n = byteLength before + c.utf8Size)

variable {cs : List Char} {n : Nat}

theorem Edge.cut (h : Edge cs n) : Cut cs n := by
  obtain ⟨before, c, after, rfl, -, rfl | rfl⟩ := h
  · exact ⟨before, c :: after, rfl, rfl⟩
  · exact ⟨before ++ [c], after, by simp, by simp⟩

/-- An edge of a part is an edge of the whole. -/
theorem Edge.within (before after : List Char) (h : Edge cs n) :
    Edge (before ++ (cs ++ after)) (byteLength before + n) := by
  obtain ⟨left, c, right, rfl, hc, hn⟩ := h
  refine ⟨before ++ left, c, right ++ after, by simp, hc, ?_⟩
  rw [byteLength_append]
  omega

/-- The first character is no blank. -/
def StartsSolid (cs : List Char) : Prop := ∃ c rest, cs = c :: rest ∧ isBlank c = false

/-- The last character is no blank. -/
def EndsSolid (cs : List Char) : Prop := ∃ before c, cs = before ++ [c] ∧ isBlank c = false

theorem EndsSolid.ne_nil (h : EndsSolid cs) : cs ≠ [] := by
  obtain ⟨before, c, rfl, -⟩ := h
  simp

theorem StartsSolid.append (h : StartsSolid cs) (ds : List Char) : StartsSolid (cs ++ ds) := by
  obtain ⟨c, rest, rfl, hc⟩ := h
  exact ⟨c, rest ++ ds, rfl, hc⟩

theorem StartsSolid.of_append {ds : List Char} (h : StartsSolid (cs ++ ds)) (hne : cs ≠ []) :
    StartsSolid cs := by
  obtain ⟨c, rest, hsplit, hc⟩ := h
  cases cs with
  | nil => exact absurd rfl hne
  | cons d cs => exact ⟨d, cs, rfl, (List.cons.inj hsplit).1 ▸ hc⟩

theorem EndsSolid.prepend (h : EndsSolid cs) (ds : List Char) : EndsSolid (ds ++ cs) := by
  obtain ⟨before, c, rfl, hc⟩ := h
  exact ⟨ds ++ before, c, by simp, hc⟩

theorem EndsSolid.of_append {ds : List Char} (h : EndsSolid (ds ++ cs)) (hne : cs ≠ []) :
    EndsSolid cs := by
  obtain ⟨before, c, hsplit, hc⟩ := h
  rcases List.eq_nil_or_concat cs with rfl | ⟨init, d, rfl⟩
  · exact absurd rfl hne
  · rw [List.concat_eq_append, ← List.append_assoc] at hsplit
    obtain rfl := List.singleton_inj.1 (List.append_inj' hsplit rfl).2
    exact ⟨init, d, List.concat_eq_append, hc⟩

theorem startsSolid_of_forall (hne : cs ≠ []) (h : ∀ c ∈ cs, isBlank c = false) : StartsSolid cs := by
  obtain ⟨c, rest, rfl⟩ := List.exists_cons_of_ne_nil hne
  exact ⟨c, rest, rfl, h c List.mem_cons_self⟩

theorem endsSolid_of_forall (hne : cs ≠ []) (h : ∀ c ∈ cs, isBlank c = false) : EndsSolid cs :=
  ⟨cs.dropLast, cs.getLast hne, (List.dropLast_concat_getLast hne).symm, h _ (List.getLast_mem hne)⟩

/-- A part that starts with no blank starts at an edge. -/
theorem StartsSolid.edge (h : StartsSolid cs) (before after : List Char) :
    Edge (before ++ (cs ++ after)) (byteLength before) := by
  obtain ⟨c, rest, rfl, hc⟩ := h
  exact ⟨before, c, rest ++ after, by simp, hc, .inl rfl⟩

/-- A part that ends with no blank ends at an edge. -/
theorem EndsSolid.edge (h : EndsSolid cs) (before after : List Char) :
    Edge (before ++ (cs ++ after)) (byteLength before + byteLength cs) := by
  obtain ⟨left, c, rfl, hc⟩ := h
  refine ⟨before ++ left, c, after, by simp, hc, .inr ?_⟩
  simp [Nat.add_assoc]

end Prose.Text
