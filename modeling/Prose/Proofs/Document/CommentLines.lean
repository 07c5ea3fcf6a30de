import Mathlib.Data.List.Forall2
import Prose.Proofs.Document.Blanking
import Prose.Proofs.Document.Locality

/- Comment lines. Blanking them out keeps every offset: line by line the text stays as long
   as it was, other lines stay what they were, and of comment lines the line breaks stay where
   they were. So the spans of the paragraphs, which are found in the text itself, can be cut
   out of the text without comments. No comment line is left in it. -/
namespace Prose.Layout

open Prose.Text

variable {marker : Char} {line : List Char}

/-- The character stands in the text, as many bytes behind its start. -/
def StandsAt (cs : List Char) (n : Nat) (c : Char) : Prop :=
  ∃ before after, cs = before ++ c :: after ∧ byteLength before = n

/-- What a line may become when comments are blanked out. -/
structure LineBlanked (marker : Char) (line blanked : List Char) : Prop where
  byteLength_eq : byteLength blanked = byteLength line
  /-- A line whose first character that is no blank is not the marker stays as it is. -/
  kept : line.find? (fun c => !isBlank c) ≠ some marker → blanked = line
  /-- Of other lines only spaces are left, -/
  spaces : line.find? (fun c => !isBlank c) = some marker →
    ∀ c ∈ blanked, c = ' ' ∨ c = '\r' ∨ c = '\n'
  /-- and the line breaks, each at its place. -/
  breaks : ∀ c, c = '\r' ∨ c = '\n' → ∀ n, StandsAt blanked n c ↔ StandsAt line n c

/-! One line. -/

theorem isCommentLine_iff : isCommentLine marker line = true ↔
    line.find? (fun c => !isBlank c) = some marker := by
  simp [isCommentLine, trimStart, List.find?_eq_head?_dropWhile_not]

theorem mem_blankOut {c d : Char} (h : d ∈ blankOut c) : d = ' ' ∨ d = c ∧ (c = '\n' ∨ c = '\r') := by
  rw [blankOut] at h
  split at h
  · next hbreak => exact .inr ⟨List.mem_singleton.1 h, hbreak⟩
  · exact .inl (List.mem_replicate.1 h).2

/-- A comment line consists of spaces and line breaks when it is blanked out. -/
theorem mem_withoutComment (h : isCommentLine marker line = true) {d : Char}
    (hd : d ∈ withoutComment marker line) : d = ' ' ∨ d = '\r' ∨ d = '\n' := by
  rw [withoutComment, if_pos h] at hd
  obtain ⟨c, -, hd⟩ := List.mem_flatMap.1 hd
  rcases mem_blankOut hd with rfl | ⟨rfl, rfl | rfl⟩
  · exact .inl rfl
  · exact .inr (.inr rfl)
  · exact .inr (.inl rfl)

/-- A line break stands where it stood, whether its line is a comment or not. -/
theorem standsAt_withoutComment {c : Char} (hc : c = '\r' ∨ c = '\n') (n : Nat) :
    StandsAt (withoutComment marker line) n c ↔ StandsAt line n c := by
  constructor
  · rintro ⟨before, after, hsplit, rfl⟩
    have hspace : c ≠ ' ' := by rcases hc with rfl | rfl <;> decide
    obtain ⟨left, right, hline, hleft⟩ :=
      (blanked_withoutComment marker line).exists_kept hsplit hspace
    exact ⟨left, right, hline, hleft.byteLength_eq.symm⟩
  · rintro ⟨before, after, rfl, rfl⟩
    rw [withoutComment]
    split
    · refine ⟨before.flatMap blankOut, after.flatMap blankOut, ?_,
        (Blanked.blankOut before).byteLength_eq⟩
      rw [List.flatMap_append, List.flatMap_cons, blankOut, if_pos hc.symm, List.singleton_append]
    · exact ⟨before, after, rfl, rfl⟩

theorem lineBlanked_withoutComment (marker : Char) (line : List Char) :
    LineBlanked marker line (withoutComment marker line) where
  byteLength_eq := (blanked_withoutComment marker line).byteLength_eq
  kept h := if_neg fun hcomment => h (isCommentLine_iff.1 hcomment)
  spaces h _ := mem_withoutComment (isCommentLine_iff.2 h)
  breaks _ := standsAt_withoutComment

/-- A comment line that is blanked out is none any more. -/
theorem withoutComment_idem (marker : Char) (line : List Char) :
    withoutComment marker (withoutComment marker line) = withoutComment marker line := by
  by_cases h : isCommentLine marker line = true
  · have hblank : ∀ c ∈ withoutComment marker line, ¬(!isBlank c) = true := by
      intro c hc
      rcases mem_withoutComment h hc with rfl | rfl | rfl <;> decide
    refine if_neg fun hcomment => ?_
    rw [isCommentLine_iff, List.find?_eq_none.2 hblank] at hcomment
    cases hcomment
  · have hsame : withoutComment marker line = line := if_neg h
    rw [hsame, hsame]

/-! The lines of a text. -/

theorem newline_not_mem_withoutComment (h : '\n' ∉ line) : '\n' ∉ withoutComment marker line := by
  intro hmem
  obtain ⟨before, after, hsplit⟩ := List.append_of_mem hmem
  obtain ⟨left, right, rfl, -⟩ := (blanked_withoutComment marker line).exists_kept hsplit (by decide)
  exact h (by simp)

theorem AreLines.map_withoutComment {ls : List (List Char)} (h : AreLines ls) :
    AreLines (ls.map (withoutComment marker)) := by
  induction h with
  | nil => exact .nil
  | @last line hne hline =>
    refine .last (fun hnil => hne ?_) (newline_not_mem_withoutComment hline)
    have hlength := (blanked_withoutComment marker line).byteLength_eq
    rw [hnil] at hlength
    exact byteLength_eq_zero_iff.1 hlength.symm
  | cons hline hlater ih =>
    rw [List.map_cons, withoutComment_newline]
    exact .cons (newline_not_mem_withoutComment hline) ih

/-- The text without comments has the lines of the text, comments blanked out. -/
theorem lines_withoutComments (marker : Char) (text : List Char) :
    lines (withoutComments marker text) = (lines text).map (withoutComment marker) := by
  rw [withoutComments_eq_flatMap, List.flatMap_def]
  exact (areLines_lines text).map_withoutComment.lines_flatten

/-- Blanking out comments keeps offsets. The text without comments is as long as the text,
    and so is each of its lines; lines that are no comments stay as they are, others become
    spaces between line breaks that stay in their places. It can be cut wherever the text can
    be cut, so also at both ends of every paragraph, and there are no comments left in it. -/
theorem withoutComments_keeps_offsets (marker : Char) (text : List Char) :
    byteLength (withoutComments marker text) = byteLength text ∧
      List.Forall₂ (LineBlanked marker) (lines text) (lines (withoutComments marker text)) ∧
      (∀ n, Cut text n → Cut (withoutComments marker text) n) ∧
      (∀ span ∈ paragraphSpans text,
        Cut (withoutComments marker text) span.start ∧ Cut (withoutComments marker text) span.stop) ∧
      withoutComments marker (withoutComments marker text) = withoutComments marker text := by
  have hblanked := blanked_withoutComments marker text
  refine ⟨hblanked.byteLength_eq, ?_, fun n => hblanked.cut, fun span hspan => ?_, ?_⟩
  · rw [lines_withoutComments, List.forall₂_map_right_iff, List.forall₂_same]
    exact fun line _ => lineBlanked_withoutComment marker line
  · have hsits := sits_of_mem_paragraphSpans hspan
    exact ⟨hblanked.cut hsits.2.1, hblanked.cut hsits.2.2⟩
  · rw [withoutComments_eq_flatMap, lines_withoutComments, List.flatMap_map,
      withoutComments_eq_flatMap]
    exact List.flatMap_congr fun line _ => withoutComment_idem marker line

example : withoutComments '#' "a # b\n # ß\r\nc".toList = "a # b\n     \r\nc".toList := by cbv

end Prose.Layout
