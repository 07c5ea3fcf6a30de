import Mathlib.Data.List.Forall2
import Mathlib.Data.List.TakeWhile
import Prose.Proofs.Document.Lines
import Prose.Proofs.Text.Cut
import Prose.Proofs.Tree.Shift

/- Chunks: the runs of lines of a text that are not blank. What the first line adds to
   the chunks of the others depends on whether it and the line behind it are blank. A
   blank line keeps the chunks on either side of it apart, so that the paragraphs of two
   texts with one between them are those of the one and those of the other. -/
namespace Prose.Layout

open Prose.Text

variable {offset : Nat} {line next : List Char} {rest : List (List Char)}

theorem chunks_blank (hline : isBlankLine line = true) :
    chunks offset (line :: rest) = chunks (offset + byteLength line) rest := by
  rw [chunks.eq_def]
  simp only [hline, if_true]

/-- A line before a blank one ends its chunk. -/
theorem chunks_end (hline : isBlankLine line = false) (hnext : isBlankLine next = true) :
    chunks offset (line :: next :: rest) =
      (offset, line) :: chunks (offset + byteLength line) (next :: rest) := by
  rw [chunks.eq_def]
  simp only [hline, Bool.false_eq_true, if_false]
  split
  · next hrest _ =>
    obtain ⟨rfl, rfl⟩ := List.cons.inj hrest
    simp only [hnext, if_true]
  · rfl

theorem chunks_single (hline : isBlankLine line = false) :
    chunks offset [line] = [(offset, line)] := by
  rw [chunks.eq_def]
  simp only [hline, Bool.false_eq_true, if_false]
  rfl

/-- A line before one that is not blank stands at the start of its chunk. -/
theorem chunks_more {start : Nat} {text : List Char} {more : List (Nat × List Char)}
    (hline : isBlankLine line = false) (hnext : isBlankLine next = false)
    (h : chunks (offset + byteLength line) (next :: rest) = (start, text) :: more) :
    chunks offset (line :: next :: rest) = (offset, line ++ text) :: more := by
  rw [chunks.eq_def]
  simp only [hline, hnext, h, Bool.false_eq_true, if_false]

theorem exists_chunks (offset : Nat) (rest : List (List Char)) (hline : isBlankLine line = false) :
    ∃ text more, chunks offset (line :: rest) = (offset, line ++ text) :: more := by
  induction rest generalizing offset line with
  | nil => exact ⟨[], [], by rw [chunks_single hline, List.append_nil]⟩
  | cons next rest ih =>
    cases hnext : isBlankLine next with
    | true => exact ⟨[], _, by rw [chunks_end hline hnext, List.append_nil]⟩
    | false =>
      obtain ⟨text, more, h⟩ := ih (offset + byteLength line) hnext
      exact ⟨_, _, chunks_more hline hnext h⟩

/-- The texts of the chunks are the runs of lines between blank ones. -/
theorem texts_chunks (offset : Nat) (ls : List (List Char)) :
    (chunks offset ls).map Prod.snd =
      ((ls.splitOnP isBlankLine).filter fun run => !run.isEmpty).map List.flatten := by
  induction ls generalizing offset with
  | nil => rfl
  | cons line rest ih =>
    have later := ih (offset + byteLength line)
    rw [List.splitOnP_cons_eq_if_modifyHead]
    cases hline : isBlankLine line with
    | true => simpa [chunks_blank hline] using later
    | false =>
      cases rest with
      | nil => simp [chunks_single hline]
      | cons next rest =>
        obtain ⟨run, runs, hruns⟩ := List.exists_cons_of_ne_nil
          (List.splitOnP_ne_nil isBlankLine rest)
        rw [List.splitOnP_cons_eq_if_modifyHead, hruns] at later ⊢
        cases hnext : isBlankLine next with
        | true => simpa [chunks_end hline hnext, hnext] using later
        | false =>
          obtain ⟨text, more, h⟩ := exists_chunks (offset + byteLength line) rest hnext
          rw [chunks_more hline hnext h]
          rw [h] at later
          simp_all

/-! Where chunks stand. -/

/-- A chunk is a part of a text that starts at an offset, and it says where it stands. -/
def StandsIn (offset : Nat) (text : List Char) (chunk : Nat × List Char) : Prop :=
  ∃ before after, text = before ++ (chunk.2 ++ after) ∧ chunk.1 = offset + byteLength before

theorem StandsIn.behind {text : List Char} {chunk : Nat × List Char} (line : List Char)
    (h : StandsIn (offset + byteLength line) text chunk) : StandsIn offset (line ++ text) chunk := by
  obtain ⟨before, after, htext, hstart⟩ := h
  exact ⟨line ++ before, after, by simp [htext], by simp [hstart, Nat.add_assoc]⟩

theorem standsIn_of_mem_chunks {ls : List (List Char)} {chunk : Nat × List Char}
    (h : chunk ∈ chunks offset ls) : StandsIn offset ls.flatten chunk := by
  induction ls generalizing offset chunk with
  | nil => exact absurd h List.not_mem_nil
  | cons line ls ih =>
    rw [List.flatten_cons]
    cases hline : isBlankLine line with
    | true =>
      rw [chunks_blank hline] at h
      exact (ih h).behind line
    | false =>
      cases ls with
      | nil =>
        rw [chunks_single hline, List.mem_singleton] at h
        exact ⟨[], [], by simp [h], by simp [h]⟩
      | cons next ls =>
        cases hnext : isBlankLine next with
        | true =>
          rw [chunks_end hline hnext, List.mem_cons] at h
          rcases h with rfl | h
          · exact ⟨[], (next :: ls).flatten, by simp, by simp⟩
          · exact (ih h).behind line
        | false =>
          obtain ⟨text, more, hchunks⟩ := exists_chunks (offset + byteLength line) ls hnext
          rw [chunks_more hline hnext hchunks, List.mem_cons] at h
          rcases h with rfl | h
          · -- the chunk goes on where the next line starts
            obtain ⟨before, after, hflat, hstart⟩ := ih (hchunks ▸ List.mem_cons_self)
            obtain rfl := byteLength_eq_zero_iff.1 (Nat.left_eq_add.1 hstart)
            exact ⟨[], after, by simpa using hflat, by simp⟩
          · exact (ih (hchunks ▸ List.mem_cons_of_mem _ h)).behind line

/-- What is trimmed away are blanks at the ends. -/
theorem exists_trimEnd (text : List Char) : ∃ trailing,
    text = trimEnd text ++ trailing ∧ ∀ c ∈ trailing, isBlank c = true := by
  refine ⟨(text.reverse.takeWhile isBlank).reverse, ?_, fun c hc => ?_⟩
  · rw [trimEnd, ← List.reverse_append, List.takeWhile_append_dropWhile, List.reverse_reverse]
  · exact List.mem_takeWhile_imp (List.mem_reverse.1 hc)

theorem exists_trim (text : List Char) : ∃ trailing,
    text = text.takeWhile isBlank ++ (trim text ++ trailing) ∧ ∀ c ∈ trailing, isBlank c = true := by
  obtain ⟨trailing, htrailing, hblank⟩ := exists_trimEnd (trimStart text)
  refine ⟨trailing, ?_, hblank⟩
  rw [trim, ← htrailing, trimStart, List.takeWhile_append_dropWhile]

/-- A chunk without the blanks at its ends is a part of the text, too. -/
theorem StandsIn.exists_trim {text : List Char} {chunk : Nat × List Char}
    (h : StandsIn offset text chunk) : ∃ before after, text = before ++ (trim chunk.2 ++ after) ∧
      trimmedSpan chunk.1 chunk.2 =
        ⟨offset + byteLength before, offset + byteLength before + byteLength (trim chunk.2)⟩ := by
  obtain ⟨before, after, htext, hstart⟩ := h
  obtain ⟨trailing, htrim, -⟩ := Layout.exists_trim chunk.2
  refine ⟨before ++ chunk.2.takeWhile isBlank, trailing ++ after, ?_, ?_⟩
  · calc text = before ++ ((chunk.2.takeWhile isBlank ++ (trim chunk.2 ++ trailing)) ++ after) := by
          rw [← htrim, htext]
      _ = _ := by simp only [List.append_assoc]
  · rw [byteLength_append, trimmedSpan, hstart]
    simp only [Nat.add_assoc]

theorem trimmedSpan_add (n : Nat) (chunk : Nat × List Char) :
    trimmedSpan (chunk.1 + n) chunk.2 = (trimmedSpan chunk.1 chunk.2).shift n := by
  simp only [trimmedSpan, Span.shift, Span.mk.injEq]
  omega

/-! Blank lines between two texts. -/

/-- Chunks end at a blank line, and others start behind it. -/
theorem chunks_append_blank (offset : Nat) (ls : List (List Char)) {blank : List Char}
    (hblank : isBlankLine blank = true) (rest : List (List Char)) :
    chunks offset (ls ++ blank :: rest) =
      chunks offset ls ++ chunks (offset + byteLength (ls.flatten ++ blank)) rest := by
  induction ls generalizing offset with
  | nil => exact chunks_blank hblank
  | cons line ls ih =>
    have later := ih (offset + byteLength line)
    rw [Nat.add_assoc, ← byteLength_append, ← List.append_assoc, ← List.flatten_cons] at later
    rw [List.cons_append]
    cases hline : isBlankLine line with
    | true => rw [chunks_blank hline, chunks_blank hline, later]
    | false =>
      cases ls with
      | nil =>
        rw [List.nil_append] at later ⊢
        rw [chunks_single hline, chunks_end hline hblank, later]
        rfl
      | cons next ls =>
        rw [List.cons_append] at later ⊢
        cases hnext : isBlankLine next with
        | true => rw [chunks_end hline hnext, chunks_end hline hnext, later, List.cons_append]
        | false =>
          obtain ⟨text, more, h⟩ := exists_chunks (offset + byteLength line) ls hnext
          rw [h, List.cons_append] at later
          rw [chunks_more hline hnext h, chunks_more hline hnext later, List.cons_append]

/-- Lines that start further on have their chunks further on. -/
theorem chunks_add (offset n : Nat) (ls : List (List Char)) :
    chunks (offset + n) ls = (chunks offset ls).map (Prod.map (· + n) id) := by
  induction ls generalizing offset with
  | nil => rfl
  | cons line ls ih =>
    have later := ih (offset + byteLength line)
    rw [Nat.add_right_comm] at later
    cases hline : isBlankLine line with
    | true => rw [chunks_blank hline, chunks_blank hline, later]
    | false =>
      cases ls with
      | nil => rw [chunks_single hline, chunks_single hline]; rfl
      | cons next ls =>
        cases hnext : isBlankLine next with
        | true =>
          rw [chunks_end hline hnext, chunks_end hline hnext, later]
          rfl
        | false =>
          obtain ⟨text, more, h⟩ := exists_chunks (offset + byteLength line) ls hnext
          rw [h] at later
          rw [chunks_more hline hnext h, chunks_more hline hnext later]
          rfl

/-- The chunk without the blanks at its ends stays the same if a line break is added. -/
theorem trimmedSpan_newline {text : List Char} (offset : Nat) (h : ∃ c ∈ text, isBlank c = false) :
    trimmedSpan offset (text ++ ['\n']) = trimmedSpan offset text := by
  have hblank : isBlank '\n' = true := by decide
  obtain ⟨c, hc, hsolid⟩ := h
  have hall : ¬∀ b ∈ text, isBlank b = true := fun hall => by simp [hall c hc] at hsolid
  have hleading : (text ++ ['\n']).takeWhile isBlank = text.takeWhile isBlank := by
    rw [List.takeWhile_append, if_neg]
    intro hlength
    exact hall (List.takeWhile_eq_self_iff.1 ((List.takeWhile_prefix _).eq_of_length hlength))
  have htrim : trim (text ++ ['\n']) = trim text := by
    rw [trim, trim, trimStart, List.dropWhile_append, if_neg]
    · simp [trimEnd, trimStart, hblank]
    · rwa [List.isEmpty_iff, List.dropWhile_eq_nil_iff]
  rw [trimmedSpan, trimmedSpan, hleading, htrim]

/-- The second chunk is the first one, which is not blank, or has one more line break. -/
def Prolongs (chunk longer : Nat × List Char) : Prop :=
  longer.1 = chunk.1 ∧ (∃ c ∈ chunk.2, isBlank c = false) ∧
    (longer.2 = chunk.2 ∨ longer.2 = chunk.2 ++ ['\n'])

theorem Prolongs.trimmedSpan_eq {chunk longer : Nat × List Char} (h : Prolongs chunk longer) :
    trimmedSpan longer.1 longer.2 = trimmedSpan chunk.1 chunk.2 := by
  obtain ⟨hstart, hsolid, htext | htext⟩ := h
  · rw [hstart, htext]
  · rw [hstart, htext, trimmedSpan_newline _ hsolid]

theorem exists_nonblank (hline : isBlankLine line = false) : ∃ c ∈ line, isBlank c = false := by
  simpa [isBlankLine] using hline

/-- A line break behind the last line at most ends the last chunk. -/
theorem chunks_newline (offset : Nat) (ls : List (List Char)) (last : List Char) :
    List.Forall₂ Prolongs (chunks offset (ls ++ [last])) (chunks offset (ls ++ [last ++ ['\n']])) := by
  have hlast : isBlankLine (last ++ ['\n']) = isBlankLine last := by
    have hblank : isBlank '\n' = true := by decide
    simp [isBlankLine, hblank]
  induction ls generalizing offset with
  | nil =>
    simp only [List.nil_append]
    cases hblank : isBlankLine last with
    | true =>
      rw [chunks_blank hblank, chunks_blank (hlast.trans hblank)]
      exact .nil
    | false =>
      rw [chunks_single hblank, chunks_single (hlast.trans hblank)]
      exact .cons ⟨rfl, exists_nonblank hblank, .inr rfl⟩ .nil
  | cons line ls ih =>
    have later := ih (offset + byteLength line)
    rw [List.cons_append, List.cons_append]
    cases hline : isBlankLine line with
    | true => rwa [chunks_blank hline, chunks_blank hline]
    | false =>
      obtain ⟨c, hc, hsolid⟩ := exists_nonblank hline
      -- the line behind this one, which may be the last
      obtain ⟨next, rest, next', rest', hnext, hnext', hsame⟩ : ∃ next rest next' rest',
          ls ++ [last] = next :: rest ∧ ls ++ [last ++ ['\n']] = next' :: rest' ∧
            isBlankLine next' = isBlankLine next := by
        cases ls with
        | nil => exact ⟨_, _, _, _, rfl, rfl, hlast⟩
        | cons next ls => exact ⟨_, _, _, _, rfl, rfl, rfl⟩
      rw [hnext, hnext'] at later ⊢
      cases hblank : isBlankLine next with
      | true =>
        rw [chunks_end hline hblank, chunks_end hline (hsame.trans hblank)]
        exact .cons ⟨rfl, ⟨c, hc, hsolid⟩, .inl rfl⟩ later
      | false =>
        obtain ⟨text, more, h⟩ := exists_chunks (offset + byteLength line) rest hblank
        obtain ⟨text', more', h'⟩ :=
          exists_chunks (offset + byteLength line) rest' (hsame.trans hblank)
        rw [h, h'] at later
        rw [chunks_more hline hblank h, chunks_more hline (hsame.trans hblank) h']
        cases later with
        | cons hfirst hmore =>
          refine .cons ⟨rfl, ⟨c, List.mem_append_left _ hc, hsolid⟩, ?_⟩ hmore
          rcases hfirst.2.2 with htext | htext
          · exact .inl (congrArg (line ++ ·) htext)
          · exact .inr ((congrArg (line ++ ·) htext).trans (List.append_assoc ..).symm)

/-- A line break at the end of a text changes nothing about its paragraphs. -/
theorem paragraphSpans_newline (cs : List Char) :
    paragraphSpans (cs ++ ['\n']) = paragraphSpans cs := by
  rw [paragraphSpans, paragraphSpans]
  rcases lines_concat cs '\n' with h | ⟨ls, last, h, h'⟩
  · rw [h, chunks_append_blank 0 _ (by decide), chunks, List.append_nil]
  · have hprolongs := chunks_newline 0 ls last
    rw [h, h']
    generalize chunks 0 (ls ++ [last]) = short, chunks 0 (ls ++ [last ++ ['\n']]) = long
      at hprolongs ⊢
    induction hprolongs with
    | nil => rfl
    | cons hfirst hmore ih => exact congrArg₂ List.cons hfirst.trimmedSpan_eq ih

/-- The paragraphs of two texts with a blank line between them: those of the one, and those
    of the other behind it. -/
theorem paragraphSpans_blankLine (cs ds : List Char) :
    paragraphSpans (cs ++ '\n' :: '\n' :: ds) =
      paragraphSpans cs ++ (paragraphSpans ds).map (Span.shift (byteLength cs + 2)) := by
  have hlines : lines (cs ++ '\n' :: '\n' :: ds) = lines (cs ++ ['\n']) ++ ['\n'] :: lines ds :=
    lines_append_newline cs ('\n' :: ds)
  have hoffset : 0 + byteLength ((lines (cs ++ ['\n'])).flatten ++ ['\n']) =
      0 + (byteLength cs + 2) := by
    rw [flatten_lines, byteLength_append, byteLength_append]
    rfl
  rw [← paragraphSpans_newline cs, paragraphSpans, hlines, chunks_append_blank 0 _ (by decide),
    hoffset, chunks_add, List.map_append, List.map_map, paragraphSpans, paragraphSpans,
    List.map_map]
  congr 1
  exact List.map_congr_left fun chunk _ => trimmedSpan_add (byteLength cs + 2) chunk

end Prose.Layout
