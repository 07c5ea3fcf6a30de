import Mathlib
import Prose.Proofs.Text.Cut
import Prose.Proofs.Token.Lossless

/- Boundaries of tokens. A text may be cut wherever a token starts: the tokens of the two parts
   are the tokens of the whole. The reader looks further than the token it reads, so this is not
   plain. What it looks for behind a token is something that would make the token longer, and
   a cut only takes away. One token is an exception: an apostrophe is an error because a word
   goes on behind its `s`, and would be a possessive if the text were cut there. But behind
   that `s` no token starts. -/
namespace Prose.Token

open Text

variable {class? : Char → Bool} {c : Char} {rest before after cs : List Char} {n offset : Nat}

/-! What is found in a text is found in a part of it that is long enough. -/

theorem startsWith_append (hne : rest ≠ []) :
    startsWith class? (rest ++ after) = startsWith class? rest := by
  obtain ⟨c, rest, rfl⟩ := List.exists_cons_of_ne_nil hne
  rfl

theorem startsWith_of_append (h : startsWith class? (rest ++ after) = false) :
    startsWith class? rest = false := by
  cases rest with
  | nil => rfl
  | cons c rest => exact h

theorem runLength_pos (h : startsWith class? cs = true) : 0 < runLength class? cs := by
  cases cs with
  | nil => cases h
  | cons c rest =>
    have hc : class? c = true := h
    simp [runLength, hc]

theorem wordLength_pos (h : startsWith isLetterOrNumeral cs = true) : 0 < wordLength cs := by
  cases cs with
  | nil => cases h
  | cons c rest =>
    have hc : isLetterOrNumeral c = true := h
    rw [wordLength, if_pos (by simp [hc])]
    omega

theorem runLength_append (h : runLength class? (rest ++ after) ≤ rest.length) :
    runLength class? (rest ++ after) = runLength class? rest := by
  induction rest with
  | nil => exact Nat.le_zero.1 h
  | cons c rest ih =>
    by_cases hc : class? c = true
    · simp only [runLength, List.cons_append, List.takeWhile_cons, hc, if_true,
        List.length_cons] at h ih ⊢
      rw [ih (by omega)]
    · simp [runLength, hc]

theorem wordLength_append (h : wordLength (rest ++ after) ≤ rest.length) :
    wordLength (rest ++ after) = wordLength rest := by
  induction rest with
  | nil => exact Nat.le_zero.1 h
  | cons c rest ih =>
    rw [List.cons_append, wordLength, List.length_cons] at h
    rw [List.cons_append, wordLength, wordLength]
    by_cases hword : (isLetterOrNumeral c || c == '_') = true
    · rw [if_pos hword] at h
      rw [if_pos hword, if_pos hword, ih (by omega)]
    · rw [if_neg hword] at h
      rw [if_neg hword, if_neg hword]
      by_cases hnext : startsWith isLetterOrNumeral (rest ++ after) = true
      · by_cases hhyphen : c == '-'
        · -- the letter behind a hyphen is part of the word, so it is not cut off
          simp only [hhyphen, hnext, Bool.and_self, if_true] at h
          have hpos := wordLength_pos hnext
          have hne : rest ≠ [] := by
            rintro rfl
            simp only [List.nil_append, List.length_nil] at h hpos
            omega
          simp only [hhyphen, hnext, startsWith_append hne ▸ hnext, Bool.and_self, if_true,
            ih (by omega)]
        · simp [hhyphen]
      · have hnext := Bool.eq_false_iff.2 hnext
        simp [hnext, startsWith_of_append hnext]

theorem commentLength_pos {depth : Nat} (h : commentLength depth cs = some n) : 0 < n := by
  cases cs with
  | nil => cases h
  | cons c rest =>
    rw [commentLength] at h
    split at h
    · obtain ⟨m, -, rfl⟩ := Option.map_eq_some_iff.1 h
      omega
    · split at h
      · split at h
        · obtain rfl := Option.some.inj h
          omega
        · obtain ⟨m, -, rfl⟩ := Option.map_eq_some_iff.1 h
          omega
      · obtain ⟨m, -, rfl⟩ := Option.map_eq_some_iff.1 h
        omega

theorem commentLength_append {depth : Nat} (h : commentLength depth (rest ++ after) = some n)
    (hn : n ≤ rest.length) : commentLength depth rest = some n := by
  induction rest generalizing depth n with
  | nil =>
    have hpos := commentLength_pos h
    rw [List.length_nil] at hn
    omega
  | cons c rest ih =>
    rw [List.length_cons] at hn
    rw [List.cons_append, commentLength] at h
    have hlater {depth : Nat} (h : (commentLength depth (rest ++ after)).map (· + 1) = some n) :
        (commentLength depth rest).map (· + 1) = some n := by
      obtain ⟨m, hm, rfl⟩ := Option.map_eq_some_iff.1 h
      rw [ih hm (by omega), Option.map_some]
    rw [commentLength]
    split at h
    · next hopen => rw [if_pos hopen, hlater h]
    · next hopen =>
      rw [if_neg hopen]
      split at h
      · next hclose =>
        rw [if_pos hclose]
        split at h
        · next hdepth => rw [if_pos hdepth, h]
        · next hdepth => rw [if_neg hdepth, hlater h]
      · next hclose => rw [if_neg hclose, hlater h]

theorem quotedLength_append (h : quotedLength (rest ++ after) = some n) (hn : n ≤ rest.length) :
    quotedLength rest = some n := by
  induction rest generalizing n with
  | nil =>
    obtain rfl := Nat.le_zero.1 hn
    cases after with
    | nil => cases h
    | cons c after =>
      rw [List.nil_append, quotedLength] at h
      split at h <;> simp at h
  | cons c rest ih =>
    rw [List.length_cons] at hn
    rw [List.cons_append, quotedLength] at h
    rw [quotedLength]
    split at h
    · next hquote => rw [if_pos hquote, h]
    · next hquote =>
      obtain ⟨m, hm, rfl⟩ := Option.map_eq_some_iff.1 h
      rw [if_neg hquote, ih hm (by omega), Option.map_some]

theorem numberLexeme_append (h : (numberLexeme (rest ++ after)).2 ≤ rest.length) :
    numberLexeme (rest ++ after) = numberLexeme rest := by
  have hdigits : runLength isDecimalDigit (rest ++ after) ≤ rest.length := by
    simp only [numberLexeme] at h
    split at h
    · split at h <;> simp only at h <;> omega
    · exact h
  simp only [numberLexeme, runLength_append hdigits] at h ⊢
  rw [runLength_append hdigits] at hdigits
  rw [List.drop_append_of_le_length hdigits] at h ⊢
  have hlength := List.length_drop (i := runLength isDecimalDigit rest) (l := rest)
  cases hrest : rest.drop (runLength isDecimalDigit rest) with
  | nil =>
    -- a slash behind the cut would go on with the number only if a digit followed it
    rw [hrest, List.length_nil] at hlength
    rw [hrest, List.nil_append] at h
    rw [List.nil_append]
    split
    · next more =>
      by_cases hdigit : startsWith isDecimalDigit more = true
      · simp only [hdigit, if_true] at h
        omega
      · simp only [hdigit]
        rfl
    · rfl
  | cons d more =>
    rw [hrest, List.length_cons] at hlength
    rw [hrest, List.cons_append] at h
    rw [List.cons_append]
    by_cases hslash : d = '/'
    · subst hslash
      by_cases hdigit : startsWith isDecimalDigit (more ++ after) = true
      · simp only [hdigit, if_true] at h
        have hpos := runLength_pos hdigit
        have hne : more ≠ [] := by
          rintro rfl
          simp only [List.length_nil, List.nil_append] at hlength h hpos
          omega
        simp only [hdigit, startsWith_append hne ▸ hdigit, if_true]
        rw [runLength_append (by omega)]
      · have hdigit := Bool.eq_false_iff.2 hdigit
        simp only [hdigit, startsWith_of_append hdigit]
        rfl
    · split
      · next heq => exact absurd (List.cons.inj heq).1 hslash
      · split
        · next heq => exact absurd (List.cons.inj heq).1 hslash
        · rfl

/-- An apostrophe is read alike unless it is on its own and an `s` behind it loses its word. -/
theorem possessiveLexeme_append (h : (possessiveLexeme (rest ++ after)).2 ≤ rest.length)
    (hs : (possessiveLexeme (rest ++ after)).2 = 0 → ∀ d more, rest = d :: more →
      d = 's' ∨ d = 'S' → startsWith isLetterOrNumeral (more ++ after) = true → more ≠ []) :
    possessiveLexeme (rest ++ after) = possessiveLexeme rest := by
  cases rest with
  | nil =>
    rw [List.nil_append, possessiveLexeme.eq_def] at h ⊢
    split
    · next c rest =>
      simp only at h
      split
      · next hc =>
        rw [if_pos hc] at h
        exact absurd h (Nat.not_succ_le_zero 0)
      · rfl
    · rfl
  | cons d more =>
    rw [List.cons_append, possessiveLexeme, possessiveLexeme]
    by_cases hd : (d == 's' || d == 'S') = true
    · by_cases hnext : startsWith isLetterOrNumeral (more ++ after) = true
      · have halone : (possessiveLexeme (d :: more ++ after)).2 = 0 := by
          rw [List.cons_append, possessiveLexeme, hnext, Bool.not_true, Bool.and_false]
          rfl
        rw [Bool.or_eq_true, beq_iff_eq, beq_iff_eq] at hd
        rw [startsWith_append (hs halone d more rfl hd hnext)]
      · have hnext := Bool.eq_false_iff.2 hnext
        rw [hnext, startsWith_of_append hnext]
    · simp [hd]

/-- A comment or a quoted text of the length that is found, or an error that goes up to the end
    of the text if it stays open. -/
def delimited (length? : List Char → Option Nat) (k : Kind) (cs : List Char) : Kind × Nat :=
  match length? cs with
  | some n => (k, n)
  | none => (.error, cs.length)

theorem delimited_append {length? : List Char → Option Nat} {k : Kind}
    (hfound : ∀ {n}, length? (rest ++ after) = some n → n ≤ rest.length → length? rest = some n)
    (h : (delimited length? k (rest ++ after)).2 ≤ rest.length) :
    delimited length? k (rest ++ after) = delimited length? k rest := by
  rw [delimited] at h ⊢
  cases hlength : length? (rest ++ after) with
  | some n =>
    rw [hlength] at h
    rw [delimited, hfound hlength h]
  | none =>
    -- what stays open goes up to the end of the text, and so nothing is cut off
    rw [hlength, List.length_append] at h
    obtain rfl : after = [] := List.length_eq_zero_iff.1 (by simp only at h; omega)
    rw [List.append_nil] at hlength ⊢
    rw [delimited, hlength]

theorem lexeme_append (h : (lexeme c (rest ++ after)).2 ≤ rest.length)
    (hs : (lexeme c (rest ++ after)).2 = 0 → ∀ d more, rest = d :: more →
      d = 's' ∨ d = 'S' → startsWith isLetterOrNumeral (more ++ after) = true → more ≠ []) :
    lexeme c (rest ++ after) = lexeme c rest := by
  rw [lexeme.eq_def] at h hs ⊢
  rw [lexeme.eq_def]
  by_cases hblank : isBlank c = true
  · rw [if_pos hblank] at h
    rw [if_pos hblank, if_pos hblank, runLength_append h]
  · rw [if_neg hblank] at h hs
    rw [if_neg hblank, if_neg hblank]
    -- one case for each first character that has a meaning of its own
    split
    case h_1 | h_2 | h_3 | h_4 => rfl
    case h_5 =>
      by_cases harrow : startsWith (· == '>') (rest ++ after) = true
      · simp only [harrow, if_true] at h
        rw [harrow, ← startsWith_append (List.length_pos_iff.1 h), harrow]
      · have harrow := Bool.eq_false_iff.2 harrow
        rw [harrow, startsWith_of_append harrow]
    case h_6 | h_7 => exact possessiveLexeme_append h hs
    case h_8 => exact delimited_append commentLength_append h
    case h_9 => exact delimited_append quotedLength_append h
    case h_10 =>
      by_cases hhex : startsWith isHexDigit (rest ++ after) = true
      · simp only [hhex, if_true] at h
        have hpos := runLength_pos hhex
        have hne : rest ≠ [] := List.length_pos_iff.1 (by omega)
        rw [runLength_append h, startsWith_append hne]
      · have hhex := Bool.eq_false_iff.2 hhex
        rw [hhex, startsWith_of_append hhex]
        rfl
    case h_11 =>
      by_cases hdigit : isDecimalDigit c = true
      · simp only [hdigit, if_true] at h ⊢
        exact numberLexeme_append h
      · by_cases hletter : (isLetter c || c == '_') = true
        · simp only [hdigit, hletter, Bool.false_eq_true, if_true, if_false] at h ⊢
          have hword := wordLength_append h
          rw [hword, List.take_append_of_le_length (hword ▸ h)]
        · simp only [hdigit, hletter]
          rfl

/-! Where tokens start. -/

/-- The second text starts where a token does when both are read as one: the first is used up
    by whole tokens. -/
inductive Meets : List Char → List Char → Prop where
  | start {after : List Char} : Meets [] after
  | token {c : Char} {rest before after : List Char}
      (hrest : rest.drop (lexeme c rest).2 = before ++ after) (h : Meets before after) :
      Meets (c :: (rest.take (lexeme c rest).2 ++ before)) after

/-- Wherever a token starts, the text before it is used up by whole tokens. -/
theorem exists_meets {t : Token} (h : t ∈ scanFrom offset cs) :
    ∃ before after, cs = before ++ after ∧ t.start = offset + byteLength before ∧ Meets before after := by
  fun_induction scanFrom offset cs with
  | case1 offset => exact ⟨[], [], rfl, by rw [List.mem_singleton.1 h]; rfl, .start⟩
  | case2 offset c rest found chars stop ih =>
    rcases List.mem_cons.1 h with rfl | h
    · exact ⟨[], c :: rest, rfl, rfl, .start⟩
    · obtain ⟨before, after, hrest, hstart, hmeets⟩ := ih h
      refine ⟨c :: (rest.take found.2 ++ before), after, ?_, ?_, .token hrest hmeets⟩
      · rw [List.cons_append, List.append_assoc, ← hrest, List.take_append_drop]
      · simp only [hstart, stop, chars, byteLength_cons, byteLength_append]
        omega

/-- A word is not cut behind its first letter. -/
theorem Meets.ne_nil {d : Char} {more : List Char} (h : Meets (d :: more) after)
    (hd : d = 's' ∨ d = 'S') (hnext : startsWith isLetterOrNumeral (more ++ after) = true) :
    more ≠ [] := by
  have hword (rest : List Char) : (lexeme d rest).2 = wordLength rest := by
    rcases hd with rfl | rfl <;> rfl
  cases h with
  | @token _ rest before _ hrest h =>
    rw [List.append_assoc, ← hrest, List.take_append_drop] at hnext
    have hpos := wordLength_pos hnext
    cases rest with
    | nil => cases hnext
    | cons e rest =>
      rw [hword]
      obtain ⟨n, hn⟩ := Nat.exists_eq_succ_of_ne_zero (Nat.pos_iff_ne_zero.1 hpos)
      rw [hn, List.take_succ_cons]
      exact List.cons_ne_nil _ _

/-- A token does not change when the text is cut where a later token starts. -/
theorem Meets.lexeme_eq (hrest : rest.drop (lexeme c rest).2 = before ++ after)
    (h : Meets before after) :
    lexeme c (rest.take (lexeme c rest).2 ++ before) = lexeme c rest := by
  have hsplit : rest.take (lexeme c rest).2 ++ before ++ after = rest := by
    rw [List.append_assoc, ← hrest, List.take_append_drop]
  by_cases hlt : rest.length < (lexeme c rest).2
  · -- the token goes up to the end, so nothing stands behind it
    have hnil : before ++ after = [] := by rw [← hrest, List.drop_eq_nil_of_le (by omega)]
    rw [List.take_of_length_le (by omega), (List.append_eq_nil_iff.1 hnil).1, List.append_nil]
  · have hlong : (lexeme c rest).2 ≤ (rest.take (lexeme c rest).2 ++ before).length := by
      rw [List.length_append, List.length_take]
      omega
    have hread : lexeme c (rest.take (lexeme c rest).2 ++ before ++ after) =
        lexeme c (rest.take (lexeme c rest).2 ++ before) := by
      apply lexeme_append (by rwa [hsplit])
      intro hzero d more hmore hd hnext
      rw [hsplit] at hzero
      rw [hzero, List.take_zero, List.nil_append] at hmore
      exact Meets.ne_nil (hmore ▸ h) hd hnext
    rw [← hread, hsplit]

theorem scanFrom_ne_nil (offset : Nat) (cs : List Char) : scanFrom offset cs ≠ [] := by
  cases cs with
  | nil => rw [scanFrom]; exact List.cons_ne_nil _ _
  | cons c rest => rw [scanFrom]; exact List.cons_ne_nil _ _

/-- Texts that meet at a token are read like one. -/
theorem Meets.scanFrom_append (h : Meets before after) (offset : Nat) :
    scanFrom offset (before ++ after) =
      (scanFrom offset before).dropLast ++ scanFrom (offset + byteLength before) after := by
  induction h generalizing offset with
  | @start after => rw [scanFrom.eq_1]; rfl
  | @token c rest before after hrest h ih =>
    have hsplit : rest.take (lexeme c rest).2 ++ before ++ after = rest := by
      rw [List.append_assoc, ← hrest, List.take_append_drop]
    -- what stands in front of the cut is all that the token takes, or there is nothing behind it
    have hparts : (rest.take (lexeme c rest).2 ++ before).take (lexeme c rest).2 =
          rest.take (lexeme c rest).2 ∧
        (rest.take (lexeme c rest).2 ++ before).drop (lexeme c rest).2 = before := by
      by_cases hlt : rest.length < (lexeme c rest).2
      · have hnil : before ++ after = [] := by rw [← hrest, List.drop_eq_nil_of_le (by omega)]
        obtain ⟨rfl, -⟩ := List.append_eq_nil_iff.1 hnil
        rw [List.append_nil, List.take_take, Nat.min_self]
        exact ⟨rfl, List.drop_eq_nil_of_le (by rw [List.length_take]; omega)⟩
      · have hlength : (rest.take (lexeme c rest).2).length = (lexeme c rest).2 := by
          rw [List.length_take]
          omega
        exact ⟨List.take_left' hlength, List.drop_left' hlength⟩
    rw [List.cons_append, hsplit, scanFrom, scanFrom, h.lexeme_eq hrest, hparts.1, hparts.2, hrest]
    rw [ih, List.dropLast_cons_of_ne_nil (scanFrom_ne_nil _ _), List.cons_append, byteLength_cons,
      byteLength_cons, byteLength_append]
    have hstop : offset + (c.utf8Size + byteLength (rest.take (lexeme c rest).2)) +
          byteLength before =
        offset + (c.utf8Size + (byteLength (rest.take (lexeme c rest).2) + byteLength before)) := by
      omega
    rw [hstop]

theorem le_start_of_mem_scanFrom {t : Token} (h : t ∈ scanFrom offset cs) : offset ≤ t.start := by
  obtain ⟨before, after, -, hstart, -⟩ := exists_meets h
  omega

/-- The tokens in front of a cut start before it, and the tokens of the whole text are these
    and the ones behind it. -/
theorem Meets.exists_front (h : Meets before after) (offset : Nat) :
    ∃ front, scanFrom offset before =
        front ++ [⟨.stop, "", offset + byteLength before, offset + byteLength before⟩] ∧
      scanFrom offset (before ++ after) =
        front ++ scanFrom (offset + byteLength before) after ∧
      ∀ t ∈ front, t.start < offset + byteLength before := by
  obtain ⟨front, hfront, hbody⟩ := scanFrom_eq_append offset before
  refine ⟨front, hfront, ?_, fun t ht => ?_⟩
  · rw [h.scanFrom_append, hfront, List.dropLast_concat]
  · have hmem : t ∈ scanFrom offset before := by
      rw [hfront]
      exact List.mem_append_left _ ht
    obtain ⟨left, right, hcut, hstart, -⟩ := cutFrom_scanFrom offset before t hmem
    have hlength : byteLength before =
        left.utf8ByteSize + t.text.utf8ByteSize + right.utf8ByteSize := by
      rw [← utf8ByteSize_ofList, hcut, String.utf8ByteSize_append, String.utf8ByteSize_append]
    have hpos : t.text.utf8ByteSize ≠ 0 := by
      rw [ne_eq, String.utf8ByteSize_eq_zero_iff]
      exact (hbody t ht).1
    omega

/-- Where a token starts, the tokens of the text are those of the part in front and those of
    the part behind. -/
theorem exists_front_of_mem {t : Token} (h : t ∈ scanFrom offset cs) :
    ∃ before after front, cs = before ++ after ∧ t.start = offset + byteLength before ∧
      scanFrom offset before = front ++ [⟨.stop, "", t.start, t.start⟩] ∧
      scanFrom offset cs = front ++ scanFrom t.start after ∧ ∀ v ∈ front, v.start < t.start := by
  obtain ⟨before, after, rfl, hstart, hmeets⟩ := exists_meets h
  obtain ⟨front, hfront, hwhole, hless⟩ := hmeets.exists_front offset
  rw [← hstart] at hfront hwhole hless
  exact ⟨before, after, front, rfl, hstart, hfront, hwhole, hless⟩

/-- The tokens between two offsets, where some stand before the first and some behind the other. -/
theorem filter_between {front between behind : List Token} {start stop : Nat}
    (hfront : ∀ v ∈ front, v.start < start) (hbetween : ∀ v ∈ between, start ≤ v.start ∧ v.start < stop)
    (hbehind : ∀ v ∈ behind, stop ≤ v.start) :
    (front ++ (between ++ behind)).filter (fun v => start ≤ v.start && v.start < stop) = between := by
  have hnone : ∀ v ∈ front, ¬(start ≤ v.start && v.start < stop) = true := by
    intro v hv
    have := hfront v hv
    simp only [Bool.and_eq_true, decide_eq_true_eq]
    omega
  have hall : ∀ v ∈ between, (start ≤ v.start && v.start < stop) = true := by
    intro v hv
    simpa only [Bool.and_eq_true, decide_eq_true_eq] using hbetween v hv
  have hlater : ∀ v ∈ behind, ¬(start ≤ v.start && v.start < stop) = true := by
    intro v hv
    have := hbehind v hv
    simp only [Bool.and_eq_true, decide_eq_true_eq]
    omega
  rw [List.filter_append, List.filter_append, List.filter_eq_nil_iff.2 hnone,
    List.filter_eq_self.2 hall, List.filter_eq_nil_iff.2 hlater, List.nil_append, List.append_nil]

/-- Reading splits at every token. Wherever a token starts, the text is cut between two
    characters: the tokens of the text are those of the part in front without the closing one,
    followed by those of the part behind, read at its offset. So a part that begins and ends where
    tokens start is read into just the tokens that the text has there, and a closing one. -/
theorem scan_split (offset : Nat) (s : String) {t : Token} (ht : t ∈ scan offset s) :
    (∃ before after, s = before ++ after ∧ offset + before.utf8ByteSize = t.start ∧
      ∃ front, scan offset before = front ++ [⟨.stop, "", t.start, t.start⟩] ∧
        scan offset s = front ++ scan t.start after) ∧
    ∀ u ∈ scan offset s, t.start ≤ u.start →
      scanFrom t.start (slice s.toList (t.start - offset) (u.start - offset)) =
        (scan offset s).filter (fun v => t.start ≤ v.start && v.start < u.start) ++
          [⟨.stop, "", u.start, u.start⟩] := by
  obtain ⟨before, after, front, hs, hstart, hfront, hwhole, hless⟩ := exists_front_of_mem ht
  constructor
  · refine ⟨String.ofList before, String.ofList after, ?_, ?_, front, ?_, ?_⟩
    · rw [← String.ofList_append, ← hs, String.ofList_toList]
    · rw [utf8ByteSize_ofList, hstart]
    · rw [scan, String.toList_ofList, hfront]
    · rw [scan, scan, String.toList_ofList, hwhole]
  · intro u hu hle
    have hbehind : u ∈ scanFrom t.start after := by
      rw [scan, hwhole, List.mem_append] at hu
      exact hu.resolve_left fun hin => absurd (hless u hin) (by omega)
    obtain ⟨part, rest, between, rfl, hustart, hpart, hrest, hbefore⟩ := exists_front_of_mem hbehind
    have hslice : slice s.toList (t.start - offset) (u.start - offset) = part := by
      rw [hs, show t.start - offset = byteLength before by omega,
        show u.start - offset = byteLength before + byteLength part by omega]
      exact slice_part before part rest
    have hbetween : ∀ v ∈ between, t.start ≤ v.start ∧ v.start < u.start := fun v hv =>
      ⟨le_start_of_mem_scanFrom (hpart ▸ List.mem_append_left _ hv), hbefore v hv⟩
    rw [hslice, hpart, scan, hwhole, hrest,
      filter_between hless hbetween fun v => le_start_of_mem_scanFrom]

/-- A possessive that is cut out of its text with the blank behind it stays one. -/
theorem scan_split_possessive :
    ⟨.possessive, "'s", 2, 4⟩ ∈ scan 0 "it's 1/2" ∧
    scanFrom 2 (slice "it's 1/2".toList 2 5) =
      [⟨.possessive, "'s", 2, 4⟩, ⟨.blank, " ", 4, 5⟩, ⟨.stop, "", 5, 5⟩] := by
  have hscan : scan 0 "it's 1/2" =
      [⟨.identifier, "it", 0, 2⟩, ⟨.possessive, "'s", 2, 4⟩, ⟨.blank, " ", 4, 5⟩,
        ⟨.ratioLiteral, "1/2", 5, 8⟩, ⟨.stop, "", 8, 8⟩] := by cbv
  have hfrom : ⟨.possessive, "'s", 2, 4⟩ ∈ scan 0 "it's 1/2" := by simp [hscan]
  have hupTo : ⟨.ratioLiteral, "1/2", 5, 8⟩ ∈ scan 0 "it's 1/2" := by simp [hscan]
  refine ⟨hfrom, ?_⟩
  have hslice := (scan_split 0 "it's 1/2" hfrom).2 _ hupTo (by decide)
  rw [hscan] at hslice
  exact hslice

end Prose.Token
