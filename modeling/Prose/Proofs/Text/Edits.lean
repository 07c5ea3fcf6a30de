import Mathlib.Order.Bounds.Basic
import Prose.Text.EditDistance
import Prose.Proofs.Text.Lowercase

/- Edits: how many characters must be put in, taken out or replaced to make one text into
   another. The least number obeys a recurrence on the first characters of the two texts;
   the rows that are computed are a table of it, over the beginnings of the texts. -/
namespace Prose.Text

variable {a b c : List Char} {m n : Nat}

/-- One character is put in, taken out or replaced. -/
inductive Edit : List Char → List Char → Prop
  | insert (before after : List Char) (e : Char) : Edit (before ++ after) (before ++ e :: after)
  | delete (before after : List Char) (e : Char) : Edit (before ++ e :: after) (before ++ after)
  | replace (before after : List Char) (e f : Char) :
      Edit (before ++ e :: after) (before ++ f :: after)

/-- A text is made into another by `n` edits, one after the other. -/
inductive Edits : Nat → List Char → List Char → Prop
  | none (a : List Char) : Edits 0 a a
  | more {n : Nat} {a b c : List Char} : Edit a b → Edits n b c → Edits (n + 1) a c

theorem Edit.symm (h : Edit a b) : Edit b a := by
  cases h with
  | insert before after e => exact .delete before after e
  | delete before after e => exact .insert before after e
  | replace before after e f => exact .replace before after f e

theorem Edit.cons (e : Char) (h : Edit a b) : Edit (e :: a) (e :: b) := by
  cases h with
  | insert before after f => exact .insert (e :: before) after f
  | delete before after f => exact .delete (e :: before) after f
  | replace before after f g => exact .replace (e :: before) after f g

theorem Edit.reverse (h : Edit a b) : Edit a.reverse b.reverse := by
  cases h with
  | insert before after e =>
    simpa using Edit.insert after.reverse before.reverse e
  | delete before after e =>
    simpa using Edit.delete after.reverse before.reverse e
  | replace before after e f =>
    simpa using Edit.replace after.reverse before.reverse e f

theorem Edits.one (h : Edit a b) : Edits 1 a b := .more h (.none b)

theorem Edits.trans (hab : Edits m a b) (hbc : Edits n b c) : Edits (m + n) a c := by
  induction hab with
  | none => rwa [Nat.zero_add]
  | @more k _ _ _ hedit _ ih =>
    rw [Nat.add_right_comm]
    exact .more hedit (ih hbc)

theorem Edits.symm (h : Edits n a b) : Edits n b a := by
  induction h with
  | none => exact .none _
  | more hedit _ ih => exact ih.trans (.one hedit.symm)

theorem Edits.cons (e : Char) (h : Edits n a b) : Edits n (e :: a) (e :: b) := by
  induction h with
  | none => exact .none _
  | more hedit _ ih => exact .more (hedit.cons e) ih

theorem Edits.reverse (h : Edits n a b) : Edits n a.reverse b.reverse := by
  induction h with
  | none => exact .none _
  | more hedit _ ih => exact .more hedit.reverse ih

theorem edits_reverse : Edits n a.reverse b.reverse ↔ Edits n a b :=
  ⟨fun h => by simpa using h.reverse, Edits.reverse⟩

theorem edits_min (hm : Edits m a b) (hn : Edits n a b) : Edits (min m n) a b := by
  rcases Nat.le_total m n with h | h
  · rwa [Nat.min_eq_left h]
  · rwa [Nat.min_eq_right h]

theorem Edit.length_le (h : Edit a b) : a.length ≤ b.length + 1 := by
  cases h <;> simp only [List.length_append, List.length_cons] <;> omega

theorem Edits.length_le (h : Edits n a b) : a.length ≤ b.length + n := by
  induction h with
  | none => exact Nat.le_refl _
  | more hedit _ ih =>
    have hone := hedit.length_le
    omega

/-! ### The recurrence -/

/-- The number of edits, from the first characters on: the first two are made the same, or
    one is put in before the other, or one is taken out. -/
def distance : List Char → List Char → Nat
  | [], b => b.length
  | a, [] => a.length
  | e :: a, f :: b =>
    min (min (distance a b + if e = f then 0 else 1) (distance (e :: a) b + 1))
      (distance a (f :: b) + 1)
termination_by a b => a.length + b.length

theorem distance_nil_left (b : List Char) : distance [] b = b.length := by
  rw [distance]

theorem distance_nil_right (a : List Char) : distance a [] = a.length := by
  cases a with
  | nil => rw [distance_nil_left]
  | cons e a =>
    rw [distance]
    exact fun h => List.cons_ne_nil _ _ h

theorem distance_cons (e f : Char) (a b : List Char) :
    distance (e :: a) (f :: b) =
      min (min (distance a b + if e = f then 0 else 1) (distance (e :: a) b + 1))
        (distance a (f :: b) + 1) := by
  rw [distance]

theorem edits_nil (b : List Char) : Edits b.length [] b := by
  induction b with
  | nil => exact .none _
  | cons f b ih => exact ih.trans (.one (.insert [] b f))

/-- So many edits are enough. -/
theorem edits_distance (a b : List Char) : Edits (distance a b) a b := by
  fun_induction distance a b with
  | case1 b => exact edits_nil b
  | case2 a => exact (edits_nil a).symm
  | case3 e a f b hsame hinsert hdelete =>
    have hfirst : Edits (distance a b + if e = f then 0 else 1) (e :: a) (f :: b) := by
      split
      · next heq =>
        subst heq
        exact hsame.cons e
      · exact (hsame.cons e).trans (.one (.replace [] b e f))
    have hput : Edits (distance (e :: a) b + 1) (e :: a) (f :: b) :=
      hinsert.trans (.one (.insert [] b f))
    have htaken : Edits (distance a (f :: b) + 1) (e :: a) (f :: b) :=
      .more (.delete [] a e) hdelete
    exact edits_min (edits_min hfirst hput) htaken

theorem distance_cons_le (e : Char) (a b : List Char) : distance (e :: a) b ≤ distance a b + 1 := by
  cases b with
  | nil =>
    rw [distance_nil_right, distance_nil_right]
    exact Nat.le_refl _
  | cons f b =>
    rw [distance_cons]
    exact Nat.min_le_right _ _

theorem distance_le_cons_right (f : Char) (a b : List Char) :
    distance a (f :: b) ≤ distance a b + 1 := by
  cases a with
  | nil =>
    rw [distance_nil_left, distance_nil_left]
    exact Nat.le_refl _
  | cons e a =>
    rw [distance_cons]
    omega

theorem distance_le_cons (e : Char) (a b : List Char) : distance a b ≤ distance (e :: a) b + 1 := by
  induction b with
  | nil =>
    rw [distance_nil_right, distance_nil_right, List.length_cons]
    omega
  | cons f b ih =>
    have hright := distance_le_cons_right f a b
    rw [distance_cons]
    omega

theorem distance_replace_le (e f : Char) (a b : List Char) :
    distance (e :: a) b ≤ distance (f :: a) b + 1 := by
  induction b with
  | nil =>
    rw [distance_nil_right, distance_nil_right]
    exact Nat.le_succ _
  | cons g b ih =>
    rw [distance_cons, distance_cons f]
    split <;> split <;> omega

theorem distance_cons_mono (e : Char) (h : ∀ c, distance a c ≤ distance b c + 1) (c : List Char) :
    distance (e :: a) c ≤ distance (e :: b) c + 1 := by
  induction c with
  | nil =>
    have hnil := h []
    rw [distance_nil_right, distance_nil_right] at hnil ⊢
    exact Nat.succ_le_succ hnil
  | cons f c ih =>
    have hsame := h c
    have htaken := h (f :: c)
    rw [distance_cons, distance_cons]
    omega

/-- One edit makes a text at most one nearer to any other. -/
theorem Edit.distance_le (h : Edit a b) (c : List Char) : distance a c ≤ distance b c + 1 := by
  -- the characters before the edit are the same on both sides
  have hcons : ∀ {a b : List Char} (before : List Char),
      (∀ c, distance a c ≤ distance b c + 1) →
        ∀ c, distance (before ++ a) c ≤ distance (before ++ b) c + 1 := by
    intro a b before hab
    induction before with
    | nil => exact hab
    | cons e before ih => exact distance_cons_mono e ih
  cases h with
  | insert before after e => exact hcons before (distance_le_cons e after) c
  | delete before after e => exact hcons before (distance_cons_le e after) c
  | replace before after e f => exact hcons before (distance_replace_le e f after) c

theorem distance_self (a : List Char) : distance a a = 0 := by
  induction a with
  | nil => rw [distance_nil_left, List.length_nil]
  | cons e a ih =>
    rw [distance_cons, ih, if_pos rfl]
    omega

/-- Fewer edits are not enough. -/
theorem Edits.distance_le (h : Edits n a b) : distance a b ≤ n := by
  have hall : ∀ {n a b}, Edits n a b → ∀ c, distance a c ≤ distance b c + n := by
    intro n a b h c
    induction h with
    | none => exact Nat.le_refl _
    | more hedit _ ih =>
      have hone := hedit.distance_le c
      omega
  have hself := hall h b
  rwa [distance_self, Nat.zero_add] at hself

theorem isLeast_distance (a b : List Char) : IsLeast {n | Edits n a b} (distance a b) :=
  ⟨edits_distance a b, fun _ h => h.distance_le⟩

/-! ### The rows -/

/-- The entries of a row after its first: the distances to a beginning (nearest character
    first) that grows by one character of `ds` after the other. -/
def entries (a : List Char) : List Char → List Char → List Nat
  | _, [] => []
  | u, d :: ds => distance a (d :: u) :: entries a (d :: u) ds

/-- The row of a beginning, nearest character first. -/
def row (target a : List Char) : List Nat := distance a [] :: entries a [] target

theorem editEntries_entries (e : Char) (a u ds : List Char) :
    editEntries e ds (distance a u) (distance (e :: a) u) (entries a u ds) =
      entries (e :: a) u ds := by
  induction ds generalizing u with
  | nil => rfl
  | cons d ds ih => rw [entries, entries, editEntries, ← distance_cons, ih]

theorem editRow_row (target a : List Char) (e : Char) :
    editRow target (row target a) e = row target (e :: a) := by
  have hfirst : distance (e :: a) [] = distance a [] + 1 := by
    rw [distance_nil_right, distance_nil_right, List.length_cons]
  rw [row, row, editRow, ← hfirst, editEntries_entries]

theorem foldl_editRow (target word a : List Char) :
    word.foldl (editRow target) (row target a) = row target (word.reverse ++ a) := by
  induction word generalizing a with
  | nil => rfl
  | cons e word ih => rw [List.foldl_cons, editRow_row, ih, List.reverse_cons, List.append_assoc,
      List.singleton_append]

theorem entries_nil (u ds : List Char) : entries [] u ds = List.range' (u.length + 1) ds.length := by
  induction ds generalizing u with
  | nil => rfl
  | cons d ds ih =>
    rw [entries, ih, distance_nil_left, List.length_cons, List.length_cons, List.range'_succ]

theorem row_nil (target : List Char) : row target [] = List.range (target.length + 1) := by
  rw [row, entries_nil, distance_nil_left, List.range_eq_range', List.range'_succ]
  rfl

theorem getLastD_entries (a u ds : List Char) (n : Nat) :
    (distance a u :: entries a u ds).getLastD n = distance a (ds.reverse ++ u) := by
  induction ds generalizing u with
  | nil => rfl
  | cons d ds ih =>
    rw [entries, List.reverse_cons, List.append_assoc, List.singleton_append, ← ih (d :: u)]
    rfl

theorem charDistance_eq (a b : List Char) : charDistance a b = distance a.reverse b.reverse := by
  rw [charDistance, ← row_nil, foldl_editRow, row, getLastD_entries, List.append_nil,
    List.append_nil]

theorem isLeast_charDistance (a b : List Char) : IsLeast {n | Edits n a b} (charDistance a b) := by
  have hleast := isLeast_distance a.reverse b.reverse
  simp only [edits_reverse] at hleast
  rwa [charDistance_eq]

theorem edits_charDistance (a b : List Char) : Edits (charDistance a b) a b :=
  (isLeast_charDistance a b).1

theorem Edits.charDistance_le (h : Edits n a b) : charDistance a b ≤ n :=
  (isLeast_charDistance a b).2 h

theorem edits_zero_iff : Edits 0 a b ↔ a = b := by
  constructor
  · rintro ⟨⟩
    rfl
  · rintro rfl
    exact .none a

theorem charDistance_eq_zero_iff : charDistance a b = 0 ↔ a = b := by
  rw [← edits_zero_iff]
  exact ⟨fun h => h ▸ edits_charDistance a b, fun h => Nat.le_zero.1 h.charDistance_le⟩

theorem charDistance_comm (a b : List Char) : charDistance a b = charDistance b a :=
  Nat.le_antisymm (edits_charDistance b a).symm.charDistance_le
    (edits_charDistance a b).symm.charDistance_le

theorem charDistance_triangle (a b c : List Char) :
    charDistance a c ≤ charDistance a b + charDistance b c :=
  ((edits_charDistance a b).trans (edits_charDistance b c)).charDistance_le

theorem editDistance_lower (a b : String) :
    editDistance (lower a) (lower b) = editDistance a b := by
  rw [editDistance, editDistance, lower_lower, lower_lower]

/-- The distance of two words is the least number of edits from one to the other in lowercase.
    Hence it is a metric on the words in lowercase. -/
theorem editDistance_isLeast (a b : String) :
    IsLeast {n | Edits n (lower a).toList (lower b).toList} (editDistance a b) ∧
      editDistance (lower a) (lower b) = editDistance a b ∧
      (editDistance a b = 0 ↔ lower a = lower b) ∧
      editDistance a b = editDistance b a ∧
      ∀ c, editDistance a c ≤ editDistance a b + editDistance b c := by
  refine ⟨isLeast_charDistance _ _, editDistance_lower a b, ?_, charDistance_comm _ _,
    fun c => charDistance_triangle _ _ _⟩
  rw [editDistance, charDistance_eq_zero_iff, String.toList_inj]

example : editDistance "Retrun" "return" = 2 := by decide +kernel

end Prose.Text
