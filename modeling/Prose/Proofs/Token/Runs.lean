import Prose.Token.Split

/- Runs between separators. Cutting at a kind gives what cutting at every separator
   gives, less the empty pieces: runs that are not empty, in order, with all tokens of
   the list in them that are no separators, and no others. -/
namespace Prose.Token

variable {α β : Type} {k : Kind} {ts run : List Token}

/-- A run goes as far as the first item that is none of it. -/
theorem takeWhile_run {p : α → Bool} {as rest : List α} (has : ∀ a ∈ as, p a = true)
    (hrest : ∀ a ∈ rest.head?, p a = false) : (as ++ rest).takeWhile p = as := by
  rw [List.takeWhile_append_of_pos has]
  cases rest with
  | nil => exact List.append_nil as
  | cons a rest => rw [List.takeWhile_cons_of_neg (by simp [hrest a rfl]), List.append_nil]

theorem dropWhile_run {p : α → Bool} {as rest : List α} (has : ∀ a ∈ as, p a = true)
    (hrest : ∀ a ∈ rest.head?, p a = false) : (as ++ rest).dropWhile p = rest := by
  rw [List.dropWhile_append_of_pos has]
  cases rest with
  | nil => rfl
  | cons a rest => exact List.dropWhile_cons_of_neg (by simp [hrest a rfl])

/-- Nothing but the separators goes missing where a list is cut. -/
theorem flatten_splitOnP (p : α → Bool) (as : List α) :
    (as.splitOnP p).flatten = as.filter fun a => !p a := by
  induction as with
  | nil => rfl
  | cons a as ih =>
    rw [List.splitOnP_cons_eq_if_modifyHead]
    obtain ⟨piece, pieces, hpieces⟩ := List.exists_cons_of_ne_nil (List.splitOnP_ne_nil p as)
    rw [hpieces] at ih ⊢
    cases h : p a
    · simp only [Bool.false_eq_true, if_false, List.modifyHead_cons, List.flatten_cons,
        List.cons_append, List.filter_cons, h, Bool.not_false, if_true]
      rw [← ih, List.flatten_cons]
    · simp only [if_true, List.flatten_cons, List.nil_append, List.filter_cons, h, Bool.not_true,
        Bool.false_eq_true, if_false]
      exact ih

theorem filter_nonempty_flatten (ls : List (List α)) :
    (ls.filter fun l => !l.isEmpty).flatten = ls.flatten := by
  induction ls with
  | nil => rfl
  | cons l ls ih =>
    cases l with
    | nil => exact ih
    | cons a l => simp only [List.filter_cons, List.isEmpty_cons, Bool.not_false, if_true,
        List.flatten_cons, ih]

/-- Images are cut where the items are cut. -/
theorem map_splitOnP {p : α → Bool} {q : β → Bool} {f : α → β} {as : List α}
    (h : ∀ a ∈ as, p a = q (f a)) :
    (as.splitOnP p).map (List.map f) = (as.map f).splitOnP q := by
  induction as with
  | nil => rfl
  | cons a as ih =>
    have hrest := ih fun b hb => h b (List.mem_cons_of_mem _ hb)
    rw [List.map_cons, List.splitOnP_cons_eq_if_modifyHead, List.splitOnP_cons_eq_if_modifyHead,
      ← hrest, h a List.mem_cons_self]
    obtain ⟨piece, pieces, hpieces⟩ := List.exists_cons_of_ne_nil (List.splitOnP_ne_nil p as)
    rw [hpieces]
    split <;> rfl

/-- Cutting at a kind is cutting at all tokens of the kind, less the empty pieces. -/
theorem splitAt_eq_splitOnP (k : Kind) (ts : List Token) :
    splitAt k ts = (ts.splitOnP fun t => t.kind == k).filter fun run => !run.isEmpty := by
  induction ts with
  | nil => rfl
  | cons t rest ih =>
    rw [splitAt.eq_def, List.splitOnP_cons_eq_if_modifyHead]
    cases ht : t.kind == k with
    | true => simpa [ht] using ih
    | false =>
      cases rest with
      | nil => simp [ht, splitAt]
      | cons next rest =>
        rw [List.splitOnP_cons_eq_if_modifyHead] at ih ⊢
        obtain ⟨piece, pieces, hpieces⟩ := List.exists_cons_of_ne_nil
          (List.splitOnP_ne_nil (fun t : Token => t.kind == k) rest)
        rw [hpieces] at ih ⊢
        cases hnext : next.kind == k with
        | true =>
          -- the run ends before the next token
          simp only [hnext, if_true] at ih ⊢
          rw [ih]
          simp only [ht, Bool.false_eq_true, if_false, List.modifyHead_cons, List.filter_cons,
            List.isEmpty_nil, List.isEmpty_cons, Bool.not_true, Bool.not_false, if_true]
          split <;> simp_all
        | false =>
          simp only [hnext, Bool.false_eq_true, if_false] at ih ⊢
          rw [ih]
          simp [ht, hnext]

/-- Tokens with the same kinds are cut at the same places. -/
theorem splitAt_map (f : Token → Token) (hf : ∀ t, (f t).kind = t.kind) (k : Kind)
    (ts : List Token) : splitAt k (ts.map f) = (splitAt k ts).map (List.map f) := by
  have hcut : (ts.splitOnP fun t => t.kind == k).map (List.map f) =
      (ts.map f).splitOnP fun t => t.kind == k := map_splitOnP fun t _ => by rw [hf]
  rw [splitAt_eq_splitOnP, splitAt_eq_splitOnP, ← hcut, List.filter_map]
  congr 2
  funext run
  simp

theorem flatten_splitAt (k : Kind) (ts : List Token) :
    (splitAt k ts).flatten = ts.filter fun t => t.kind != k := by
  rw [splitAt_eq_splitOnP, filter_nonempty_flatten, flatten_splitOnP]
  rfl

theorem ne_nil_of_mem_splitAt (h : run ∈ splitAt k ts) : run ≠ [] := by
  rw [splitAt_eq_splitOnP, List.mem_filter] at h
  rintro rfl
  exact absurd h.2 (by decide)

/-- A run is part of the list, in its order. -/
theorem sublist_of_mem_splitAt (h : run ∈ splitAt k ts) : run.Sublist ts := by
  have hflat : run.Sublist (splitAt k ts).flatten := List.sublist_flatten_of_mem h
  rw [flatten_splitAt] at hflat
  exact hflat.trans List.filter_sublist

end Prose.Token
