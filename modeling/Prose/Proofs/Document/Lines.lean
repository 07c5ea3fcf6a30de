import Prose.Document.Layout

/- Lines, and comment lines among them. The lines of two texts with a line break between
   them are the lines of the one and the lines of the other. -/
namespace Prose.Layout

open Prose.Text

/-- A character that is no line break stands at the start of the next line. -/
theorem lines_cons {c : Char} {rest line : List Char} {later : List (List Char)} (hc : c ≠ '\n')
    (h : lines rest = line :: later) : lines (c :: rest) = (c :: line) :: later := by
  rw [lines, if_neg hc, h]

theorem flatten_lines (cs : List Char) : (lines cs).flatten = cs := by
  fun_induction lines cs with
  | case1 => rfl
  | case2 rest ih => rw [List.flatten_cons, ih, List.singleton_append]
  | case3 c rest hc line later hrest ih =>
    rw [hrest, List.flatten_cons] at ih
    rw [List.flatten_cons, List.cons_append, ih]
  | case4 c rest hc hrest ih =>
    rw [hrest] at ih
    rw [← ih]
    rfl

theorem exists_lines (cs : List Char) (hne : cs ≠ []) : ∃ line later, lines cs = line :: later := by
  cases h : lines cs with
  | cons line later => exact ⟨line, later, rfl⟩
  | nil =>
    have hflat := flatten_lines cs
    rw [h] at hflat
    exact absurd hflat.symm hne

/-- A line ends with its break; what follows is a text of its own. -/
theorem lines_append_newline (cs ds : List Char) :
    lines (cs ++ '\n' :: ds) = lines (cs ++ ['\n']) ++ lines ds := by
  induction cs with
  | nil => rfl
  | cons c cs ih =>
    by_cases hc : c = '\n'
    · simp only [hc, List.cons_append, lines, if_true, ih]
    · obtain ⟨line, later, h⟩ := exists_lines (cs ++ ['\n']) (by simp)
      rw [List.cons_append, List.cons_append, lines_cons hc h]
      exact lines_cons hc (by rw [ih, h]; rfl)

/-- A character at the end of a text is a line of its own, or it ends the last line. -/
theorem lines_concat (cs : List Char) (d : Char) :
    lines (cs ++ [d]) = lines cs ++ [[d]] ∨
      ∃ ls last, lines cs = ls ++ [last] ∧ lines (cs ++ [d]) = ls ++ [last ++ [d]] := by
  have hone (c : Char) : lines [c] = [[c]] := by simp [lines]
  induction cs with
  | nil => exact .inl (hone d)
  | cons c cs ih =>
    rw [List.cons_append]
    by_cases hc : c = '\n'
    · simp only [hc, lines, if_true]
      rcases ih with h | ⟨ls, last, h, h'⟩
      · exact .inl (by rw [h, List.cons_append])
      · exact .inr ⟨['\n'] :: ls, last, by rw [h, List.cons_append], by rw [h', List.cons_append]⟩
    · cases cs with
      | nil => exact .inr ⟨[], [c], hone c, lines_cons hc (hone d)⟩
      | cons e cs =>
        obtain ⟨line, later, hlines⟩ := exists_lines (e :: cs) (by simp)
        rcases ih with h | ⟨ls, last, h, h'⟩
        · left
          rw [lines_cons hc hlines]
          exact lines_cons hc (by rw [h, hlines]; rfl)
        · right
          cases ls with
          | nil => exact ⟨[], c :: last, lines_cons hc h, lines_cons hc h'⟩
          | cons l ls => exact ⟨(c :: l) :: ls, last, lines_cons hc h, lines_cons hc h'⟩

/-! What lines are. -/

/-- Lines of a text: none is empty, and a break ends each of them but the last, which may do
    without one. -/
inductive AreLines : List (List Char) → Prop where
  | nil : AreLines []
  | last {line : List Char} (hne : line ≠ []) (hline : '\n' ∉ line) : AreLines [line]
  | cons {line : List Char} {later : List (List Char)} (hline : '\n' ∉ line)
      (hlater : AreLines later) : AreLines ((line ++ ['\n']) :: later)

theorem areLines_lines (cs : List Char) : AreLines (lines cs) := by
  fun_induction lines cs with
  | case1 => exact .nil
  | case2 rest ih => exact .cons List.not_mem_nil ih
  | case3 c rest hc line later hrest ih =>
    rw [hrest] at ih
    cases ih with
    | last hne hline => exact .last (List.cons_ne_nil c line) (by simp [hline, Ne.symm hc])
    | cons hline hlater =>
      have hbegun := List.not_mem_cons_of_ne_of_not_mem (Ne.symm hc) hline
      exact AreLines.cons hbegun hlater
  | case4 c rest hc hrest ih => exact .last (List.cons_ne_nil c []) (by simp [Ne.symm hc])

/-- A line without a break. -/
theorem lines_line {line : List Char} (hne : line ≠ []) (hline : '\n' ∉ line) :
    lines line = [line] := by
  induction line with
  | nil => exact absurd rfl hne
  | cons c line ih =>
    rw [List.mem_cons, not_or] at hline
    cases line with
    | nil => rw [lines, if_neg (Ne.symm hline.1), lines]
    | cons d line => exact lines_cons (Ne.symm hline.1) (ih (List.cons_ne_nil d line) hline.2)

/-- A line with its break. -/
theorem lines_line_newline {line : List Char} (hline : '\n' ∉ line) :
    lines (line ++ ['\n']) = [line ++ ['\n']] := by
  induction line with
  | nil => rfl
  | cons c line ih =>
    rw [List.mem_cons, not_or] at hline
    exact lines_cons (Ne.symm hline.1) (ih hline.2)

/-- A text that is put together of lines has these lines. -/
theorem AreLines.lines_flatten {ls : List (List Char)} (h : AreLines ls) :
    lines ls.flatten = ls := by
  induction h with
  | nil => rfl
  | last hne hline => rw [List.flatten_singleton, lines_line hne hline]
  | cons hline hlater ih =>
    rw [List.flatten_cons, List.append_assoc, List.singleton_append, lines_append_newline,
      lines_line_newline hline, ih, List.singleton_append]

/-- Some of the lines. -/
theorem AreLines.sublist {ls kept : List (List Char)} (h : AreLines ls) (hsub : kept.Sublist ls) :
    AreLines kept := by
  induction h generalizing kept with
  | nil =>
    rw [List.sublist_nil.1 hsub]
    exact .nil
  | last hne hline =>
    cases hsub with
    | cons _ hsub =>
      rw [List.sublist_nil.1 hsub]
      exact .nil
    | cons_cons _ hsub =>
      rw [List.sublist_nil.1 hsub]
      exact .last hne hline
  | cons hline hlater ih =>
    cases hsub with
    | cons _ hsub => exact ih hsub
    | cons_cons _ hsub => exact .cons hline (ih hsub)

/-! Comment lines. -/

/-- A line, blanked out if it is a comment. -/
def withoutComment (marker : Char) (line : List Char) : List Char :=
  if isCommentLine marker line then line.flatMap blankOut else line

theorem withoutComments_eq_flatMap (marker : Char) (text : List Char) :
    withoutComments marker text = (lines text).flatMap (withoutComment marker) := rfl

theorem withoutComment_newline (marker : Char) (line : List Char) :
    withoutComment marker (line ++ ['\n']) = withoutComment marker line ++ ['\n'] := by
  have hblank : isBlank '\n' = true := by decide
  have hsame : isCommentLine marker (line ++ ['\n']) = isCommentLine marker line := by
    rw [isCommentLine, isCommentLine, trimStart, trimStart, List.dropWhile_append]
    cases line.dropWhile isBlank <;> simp [hblank]
  rw [withoutComment, withoutComment, hsame]
  split
  · rw [List.flatMap_append]
    rfl
  · rfl

theorem withoutComments_newline (marker : Char) (cs : List Char) :
    withoutComments marker (cs ++ ['\n']) = withoutComments marker cs ++ ['\n'] := by
  have hbreak : withoutComment marker ['\n'] = ['\n'] := withoutComment_newline marker []
  rw [withoutComments_eq_flatMap, withoutComments_eq_flatMap]
  rcases lines_concat cs '\n' with h | ⟨ls, last, h, h'⟩
  · simp [h, hbreak]
  · simp [h, h', withoutComment_newline]

/-- Comments are blanked out on either side of a blank line for themselves. -/
theorem withoutComments_blankLine (marker : Char) (cs ds : List Char) :
    withoutComments marker (cs ++ '\n' :: '\n' :: ds) =
      withoutComments marker cs ++ '\n' :: '\n' :: withoutComments marker ds := by
  have happend (as bs : List Char) : withoutComments marker (as ++ '\n' :: bs) =
      withoutComments marker as ++ '\n' :: withoutComments marker bs := by
    rw [withoutComments_eq_flatMap, lines_append_newline, List.flatMap_append,
      ← withoutComments_eq_flatMap, ← withoutComments_eq_flatMap, withoutComments_newline,
      List.append_assoc, List.singleton_append]
  have hbreak := happend [] ds
  simp only [List.nil_append] at hbreak
  rw [happend, hbreak]
  rfl

end Prose.Layout
