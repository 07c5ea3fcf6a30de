import Mathlib
import Prose.Diagnostic.Location
import Prose.Proofs.Text.Cut

/- Locations. The line of an offset is found by walking over the lines, and its column by
   walking over the characters of that line. Here both are said by the bytes of the text:
   as many breaks stand before the offset as lines stand before its line, and the
   characters before its column end at the first cut that is not before the offset. An
   offset among the carriage returns at the end of a line, or behind the text, counts as
   the end of its line. -/
namespace Prose

open Text

/-! Line breaks among the bytes of a text. -/

namespace Text

/-- The byte of a line break is no part of another character. -/
theorem newline_not_mem_utf8EncodeChar {c : Char} (h : c ≠ '\n') :
    10 ∉ String.utf8EncodeChar c := by
  have hbyte (n : Nat) : 10 = UInt8.ofNat n ↔ n % 256 = 10 := by
    rw [eq_comm, ← UInt8.toNat_inj]
    exact Iff.rfl
  have hval : c.val.toNat ≠ 10 := fun hval => h (Char.ext (UInt32.toNat_inj.1 hval))
  simp only [String.utf8EncodeChar]
  -- a character has one to four bytes, and only one that stands alone is below 128
  split_ifs <;> simp only [List.mem_cons, List.not_mem_nil, hbyte, or_false, not_or] <;> omega

theorem count_utf8EncodeChar (c : Char) :
    (String.utf8EncodeChar c).count 10 = if c = '\n' then 1 else 0 := by
  split
  · next h =>
    subst h
    decide
  · next h => exact List.count_eq_zero.2 (newline_not_mem_utf8EncodeChar h)

/-- The bytes of a text in UTF-8. -/
def bytes (cs : List Char) : List UInt8 := cs.flatMap String.utf8EncodeChar

theorem bytes_append (cs ds : List Char) : bytes (cs ++ ds) = bytes cs ++ bytes ds :=
  List.flatMap_append

theorem length_bytes (cs : List Char) : (bytes cs).length = byteLength cs := by
  induction cs with
  | nil => rfl
  | cons c cs ih =>
    rw [bytes, List.flatMap_cons, List.length_append, String.length_utf8EncodeChar,
      byteLength_cons, ← bytes, ih]

/-- There are as many bytes of line breaks as there are line breaks. -/
theorem count_bytes (cs : List Char) : (bytes cs).count 10 = cs.count '\n' := by
  induction cs with
  | nil => rfl
  | cons c cs ih =>
    rw [bytes, List.flatMap_cons, List.count_append, count_utf8EncodeChar, ← bytes, ih,
      List.count_cons, Nat.add_comm]
    simp only [beq_iff_eq]

theorem toList_toUTF8 (s : String) : s.toUTF8.data.toList = bytes s.toList := by
  have hencode : s.toUTF8 = s.toList.utf8Encode := by
    conv => lhs; rw [← String.ofList_toList (s := s)]
    exact String.toByteArray_ofList
  rw [hencode, List.utf8Encode, List.toList_data_toByteArray, bytes]

end Text

/-! Lines. -/

/-- A line of a text, between what stands before it and what stands behind it. There is no
    break in it, and there is one on either side of it, unless the text begins or ends there. -/
structure IsLine (text before line after : List Char) : Prop where
  text_eq : text = before ++ (line ++ after)
  unbroken : '\n' ∉ line
  begins : ∀ c ∈ before.getLast?, c = '\n'
  ends : ∀ c ∈ after.head?, c = '\n'

/-- The lines of a text, with a break between any two neighbours. -/
inductive BreaksInto : List Char → List (List Char) → Prop where
  | last {line : List Char} (hline : '\n' ∉ line) : BreaksInto line [line]
  | cons {line rest : List Char} {later : List (List Char)} (hline : '\n' ∉ line)
      (hlater : BreaksInto rest later) : BreaksInto (line ++ '\n' :: rest) (line :: later)

theorem BreaksInto.ne_nil {text : List Char} {ls : List (List Char)} (h : BreaksInto text ls) :
    ls ≠ [] := by
  cases h <;> exact List.cons_ne_nil _ _

theorem breaksInto_linesOf (cs : List Char) : BreaksInto cs (linesOf cs) := by
  fun_induction linesOf cs with
  | case1 => exact .last List.not_mem_nil
  | case2 rest ih => exact @BreaksInto.cons [] _ _ List.not_mem_nil ih
  | case3 c rest hc line later hrest ih =>
    rw [hrest] at ih
    cases ih with
    | last hline => exact .last (List.not_mem_cons_of_ne_of_not_mem (Ne.symm hc) hline)
    | cons hline hlater =>
      have hbegun := List.not_mem_cons_of_ne_of_not_mem (Ne.symm hc) hline
      exact BreaksInto.cons hbegun hlater
  | case4 c rest hc hrest ih => exact absurd hrest ih.ne_nil

variable {index offset : Nat} {text line : List Char} {later : List (List Char)}

theorem lineAt_cons (hne : later ≠ []) : lineAt index offset (line :: later) =
    if offset ≤ byteLength line then (index, offset, line)
    else lineAt (index + 1) (offset - (byteLength line + 1)) later := by
  cases later with
  | nil => exact absurd rfl hne
  | cons next later => rfl

/-- The line that is found stands in the text behind as many breaks as its index says, and the
    offset lies in it or behind the text. -/
theorem BreaksInto.exists_isLine (h : BreaksInto text later) (index offset : Nat) :
    ∃ before line after inside, IsLine text before line after ∧
      lineAt index offset later = (index + before.count '\n', inside, line) ∧
      later[before.count '\n']? = some line ∧ offset = byteLength before + inside ∧
      (inside ≤ byteLength line ∨ after = []) := by
  induction h generalizing index offset with
  | @last line hline =>
    exact ⟨[], line, [], offset, ⟨(List.append_nil line).symm, hline, nofun, nofun⟩, rfl, rfl,
      (Nat.zero_add _).symm, .inr rfl⟩
  | @cons line rest later hline hlater ih =>
    rw [lineAt_cons hlater.ne_nil]
    split
    · next hle =>
      exact ⟨[], line, '\n' :: rest, offset, ⟨rfl, hline, nofun, fun c hc => (Option.some.inj hc).symm⟩,
        rfl, rfl, (Nat.zero_add _).symm, .inl hle⟩
    · next hlt =>
      obtain ⟨before, found, after, inside, hfound, hat, hget, hinside, hend⟩ :=
        ih (index + 1) (offset - (byteLength line + 1))
      have hbreak : ('\n' : Char).utf8Size = 1 := rfl
      have hcount : (line ++ '\n' :: before).count '\n' = before.count '\n' + 1 := by
        rw [List.count_append, List.count_eq_zero.2 hline, List.count_cons_self, Nat.zero_add]
      refine ⟨line ++ '\n' :: before, found, after, inside,
        ⟨?_, hfound.unbroken, ?_, hfound.ends⟩, ?_, ?_, ?_, hend⟩
      · rw [hfound.text_eq, List.append_assoc, List.cons_append]
      · intro c hc
        rw [List.getLast?_append, List.getLast?_cons] at hc
        cases hlast : before.getLast? with
        | none =>
          rw [hlast] at hc
          exact (Option.some.inj hc).symm
        | some d =>
          rw [hlast] at hc
          exact Option.some.inj hc ▸ hfound.begins d hlast
      · rw [hat, hcount, Nat.add_assoc, Nat.add_comm 1]
      · rw [hcount, List.getElem?_cons_succ, hget]
      · rw [byteLength_append, byteLength_cons, hbreak]
        omega

/-- There are as many breaks before the offset as before its line. -/
theorem IsLine.count_take {before after : List Char} {inside : Nat}
    (h : IsLine text before line after) (hend : inside ≤ byteLength line ∨ after = []) :
    ((bytes text).take (byteLength before + inside)).count 10 = before.count '\n' := by
  have hline : ((bytes (line ++ after)).take inside).count 10 = 0 := by
    have hbroken : 10 ∉ bytes line := by
      rw [← List.count_eq_zero, count_bytes]
      exact List.count_eq_zero.2 h.unbroken
    refine List.count_eq_zero.2 fun hmem => hbroken ?_
    rw [bytes_append] at hmem
    rcases hend with hle | rfl
    · rw [List.take_append_of_le_length (by rwa [length_bytes])] at hmem
      exact List.mem_of_mem_take hmem
    · rw [show bytes [] = [] from rfl, List.append_nil] at hmem
      exact List.mem_of_mem_take hmem
  rw [h.text_eq, bytes_append, ← length_bytes, List.take_append, List.take_of_length_le (by omega),
    Nat.add_sub_cancel_left, List.count_append, hline, count_bytes, Nat.add_zero]

/-! Columns. -/

/-- The characters that start before a byte end at the first cut that is not before it. -/
theorem isLeast_charsBefore {cs after : List Char} {n : Nat} (h : n ≤ byteLength cs) :
    IsLeast {m | Cut (cs ++ after) m ∧ n ≤ m} (byteLength (cs.take (charsBefore n cs))) := by
  induction cs generalizing n with
  | nil =>
    obtain rfl : n = 0 := Nat.le_zero.1 h
    exact ⟨⟨cut_zero _, Nat.le_refl _⟩, fun m _ => Nat.zero_le m⟩
  | cons c cs ih =>
    rw [byteLength_cons] at h
    rw [charsBefore]
    split
    · next hn => exact ⟨⟨cut_zero _, by omega⟩, fun m _ => Nat.zero_le m⟩
    · next hn =>
      rw [List.take_succ_cons, byteLength_cons, List.cons_append]
      obtain ⟨⟨hcut, hle⟩, hleast⟩ := ih (n := n - c.utf8Size) (by omega)
      refine ⟨⟨?_, by omega⟩, ?_⟩
      · have hwithin := hcut.within [c] []
        rw [List.append_nil] at hwithin
        exact hwithin
      · rintro m ⟨⟨left, right, hsplit, rfl⟩, hm⟩
        cases left with
        | nil => exact absurd (Nat.le_zero.1 hm) hn
        | cons d left =>
          obtain ⟨rfl, hrest⟩ := List.cons.inj hsplit
          rw [byteLength_cons] at hm ⊢
          exact Nat.add_le_add_left (hleast ⟨⟨left, right, hrest, rfl⟩, by omega⟩) _

theorem charsBefore_mono {cs : List Char} {m n : Nat} (h : m ≤ n) :
    charsBefore m cs ≤ charsBefore n cs := by
  induction cs generalizing m n with
  | nil => exact Nat.le_refl _
  | cons c cs ih =>
    rw [charsBefore, charsBefore]
    split
    · exact Nat.zero_le _
    · rw [if_neg (by omega)]
      exact Nat.add_le_add_right (ih (Nat.sub_le_sub_right h _)) 1

theorem charsBefore_le_length (n : Nat) (cs : List Char) : charsBefore n cs ≤ cs.length := by
  induction cs generalizing n with
  | nil => exact Nat.le_refl _
  | cons c cs ih =>
    rw [charsBefore]
    split
    · exact Nat.zero_le _
    · exact Nat.add_le_add_right (ih _) 1

/-- A cut behind the front of a text cuts what follows the front. -/
theorem cut_of_append {before cs : List Char} {n : Nat}
    (h : Cut (before ++ cs) (byteLength before + n)) : Cut cs n := by
  obtain ⟨left, right, hsplit, hlength⟩ := h
  rcases List.append_eq_append_iff.1 hsplit with ⟨more, rfl, rfl⟩ | ⟨more, rfl, rfl⟩
  · rw [byteLength_append] at hlength
    exact ⟨more, right, rfl, by omega⟩
  · -- the cut would stand before the front ends
    rw [byteLength_append] at hlength
    obtain rfl : n = 0 := by omega
    exact cut_zero cs

/-- The same within a text, for the characters of a part of it. -/
theorem isLeast_charsBefore_within {before part after : List Char} {n : Nat}
    (h : n ≤ byteLength part) :
    IsLeast {m | Cut (before ++ (part ++ after)) m ∧ byteLength before + n ≤ m}
      (byteLength before + byteLength (part.take (charsBefore n part))) := by
  obtain ⟨⟨hcut, hle⟩, hleast⟩ := @isLeast_charsBefore part after n h
  refine ⟨⟨?_, Nat.add_le_add_left hle _⟩, ?_⟩
  · have hwithin := hcut.within before []
    rwa [List.append_nil] at hwithin
  · rintro m ⟨hm, hnm⟩
    obtain ⟨k, rfl⟩ := Nat.exists_eq_add_of_le (Nat.le_trans (Nat.le_add_right _ _) hnm)
    exact Nat.add_le_add_left (hleast ⟨cut_of_append hm, by omega⟩) _

/-! Carriage returns. -/

theorem exists_replicate_returns (line : List Char) :
    ∃ n, line = dropReturns line ++ List.replicate n '\r' := by
  refine ⟨(line.reverse.takeWhile (· == '\r')).length, ?_⟩
  have hreturns : (line.reverse.takeWhile (· == '\r')).reverse =
      List.replicate (line.reverse.takeWhile (· == '\r')).length '\r' := by
    refine List.eq_replicate_iff.2 ⟨List.length_reverse, fun c hc => ?_⟩
    have hreturn := List.mem_takeWhile_imp (List.mem_reverse.1 hc)
    exact eq_of_beq hreturn
  rw [← hreturns, dropReturns, ← List.reverse_append, List.takeWhile_append_dropWhile,
    List.reverse_reverse]

theorem ne_return_of_mem_getLast? {line : List Char} :
    ∀ c ∈ (dropReturns line).getLast?, c ≠ '\r' := by
  rw [dropReturns, List.getLast?_reverse]
  intro c hc hreturn
  have hkept := List.head?_dropWhile_not (· == '\r') line.reverse
  rw [Option.mem_def.1 hc, hreturn] at hkept
  exact Bool.false_ne_true hkept.symm

/-! The order of offsets. -/

theorem le_lineAt (index offset : Nat) (ls : List (List Char)) :
    index ≤ (lineAt index offset ls).1 := by
  fun_induction lineAt index offset ls with
  | case1 | case2 | case3 => exact Nat.le_refl _
  | case4 index offset line next later hlt ih => exact Nat.le_of_succ_le ih

/-- A greater offset lies in a later line, or further on in the same one. -/
theorem lineAt_mono {m n : Nat} (h : m ≤ n) (index : Nat) (ls : List (List Char)) :
    (lineAt index m ls).1 < (lineAt index n ls).1 ∨
      (lineAt index m ls).1 = (lineAt index n ls).1 ∧
      (lineAt index m ls).2.2 = (lineAt index n ls).2.2 ∧
      (lineAt index m ls).2.1 ≤ (lineAt index n ls).2.1 := by
  induction ls generalizing index m n with
  | nil => exact .inr ⟨rfl, rfl, h⟩
  | cons line later ih =>
    by_cases hlater : later = []
    · subst hlater
      exact .inr ⟨rfl, rfl, h⟩
    · rw [lineAt_cons hlater, lineAt_cons hlater]
      by_cases hn : n ≤ byteLength line
      · rw [if_pos hn, if_pos (Nat.le_trans h hn)]
        exact .inr ⟨rfl, rfl, h⟩
      · rw [if_neg hn]
        split
        · exact .inl (le_lineAt (index + 1) _ later)
        · exact ih (Nat.sub_le_sub_right h _) (index + 1)

namespace SourceText

variable (s : SourceText)

theorem locate_mono :
    Monotone fun offset => toLex ((s.locate offset).line, (s.locate offset).column) := by
  intro m n h
  rw [Prod.Lex.toLex_le_toLex]
  simp only [locate]
  rcases lineAt_mono h 0 (linesOf s.text.toList) with hline | ⟨hline, htext, hinside⟩
  · exact .inl (Nat.add_lt_add_right hline 1)
  · rw [hline, htext]
    exact .inr ⟨rfl, Nat.add_le_add_right (charsBefore_mono (min_le_min_right _ hinside)) 1⟩

/-- Locations are exact. The number of the line counts the breaks before the offset, and its
    text is the line without the returns at its end. The characters before the column end at
    the first cut of the text that is not before the offset, or not before the end of the
    line if the offset lies behind that. So locations are in the order of the offsets. -/
theorem locate_exact :
    (∀ offset, ∃ before line after returns chars, let place := s.locate offset
      let content := place.lineText.toList
      IsLine s.text.toList before line after ∧
      place.line = before.count '\n' + 1 ∧
      (s.text.toUTF8.data.toList.take offset).count 10 = before.count '\n' ∧
      line = content ++ List.replicate returns '\r' ∧ (∀ c ∈ content.getLast?, c ≠ '\r') ∧
      s.line? place.line = some place.lineText ∧
      place.column = chars + 1 ∧ chars ≤ content.length ∧
      IsLeast {m | Cut s.text.toList m ∧ min offset (byteLength before + byteLength content) ≤ m}
        (byteLength before + byteLength (content.take chars))) ∧
    Monotone fun offset => toLex ((s.locate offset).line, (s.locate offset).column) := by
  refine ⟨fun offset => ?_, s.locate_mono⟩
  obtain ⟨before, line, after, inside, hline, hat, hget, rfl, hend⟩ :=
    (breaksInto_linesOf s.text.toList).exists_isLine 0 offset
  obtain ⟨returns, hreturns⟩ := exists_replicate_returns line
  let content := dropReturns line
  have hplace : s.locate (byteLength before + inside) =
      ⟨s.name, before.count '\n' + 1, charsBefore (min inside (byteLength content)) content + 1,
        String.ofList content⟩ := by
    simp only [locate, hat, Nat.zero_add, content]
  refine ⟨before, line, after, returns, charsBefore (min inside (byteLength content)) content, ?_⟩
  simp only [hplace, String.toList_ofList]
  refine ⟨hline, trivial, ?_, hreturns, ne_return_of_mem_getLast?, ?_, trivial,
    charsBefore_le_length _ _, ?_⟩
  · rw [toList_toUTF8, hline.count_take hend]
  · rw [line?, hget, Option.map_some]
  · have htext : s.text.toList = before ++ (content ++ (List.replicate returns '\r' ++ after)) := by
      rw [hline.text_eq, ← List.append_assoc content, ← hreturns]
    rw [htext, Nat.add_min_add_left]
    exact isLeast_charsBefore_within (Nat.min_le_right _ _)

end SourceText

end Prose
