import Prose.Proofs.Token.Boundaries

/- Quoted texts. A double quote belongs to no token that starts before it, but to comments
   and to texts that were opened before. So what is read in front of a double quote at which
   a token starts does not depend on what stands behind it, and the tokens around a quoted
   text are the same whatever it says. -/
namespace Prose.Token

open Text

variable {class? : Char → Bool} {c : Char} {w r r' cs : List Char} {n offset : Nat}

/-! What is found in front of a double quote. -/

theorem startsWith_quote (r r' : List Char) :
    startsWith class? (w ++ '"' :: r) = startsWith class? (w ++ '"' :: r') := by
  cases w <;> rfl

theorem runLength_quote (hquote : class? '"' = false) (r r' : List Char) :
    runLength class? (w ++ '"' :: r) = runLength class? (w ++ '"' :: r') := by
  induction w with
  | nil => simp [runLength, hquote]
  | cons d w ih =>
    simp only [runLength] at ih
    simp only [runLength, List.cons_append, List.takeWhile_cons]
    split
    · rw [List.length_cons, List.length_cons, ih]
    · rfl

theorem runLength_quote_le (hquote : class? '"' = false) : runLength class? (w ++ '"' :: r) ≤ w.length := by
  induction w with
  | nil => simp [runLength, hquote]
  | cons d w ih =>
    simp only [runLength] at ih
    simp only [runLength, List.cons_append, List.takeWhile_cons]
    split
    · exact Nat.succ_le_succ ih
    · exact Nat.zero_le _

theorem wordLength_quote (r r' : List Char) :
    wordLength (w ++ '"' :: r) = wordLength (w ++ '"' :: r') := by
  induction w with
  | nil => rfl
  | cons d w ih =>
    rw [List.cons_append, List.cons_append, wordLength, wordLength, ih, startsWith_quote r r']

theorem numberLexeme_quote (r r' : List Char) :
    numberLexeme (w ++ '"' :: r) = numberLexeme (w ++ '"' :: r') := by
  have hdigits : isDecimalDigit '"' = false := by decide
  have hle (r : List Char) := runLength_quote_le (w := w) (r := r) hdigits
  simp only [numberLexeme, runLength_quote hdigits r r', List.drop_append_of_le_length (hle r')]
  cases hrest : w.drop (runLength isDecimalDigit (w ++ '"' :: r')) with
  | nil => rfl
  | cons d more =>
    rw [List.cons_append, List.cons_append]
    by_cases hslash : d = '/'
    · subst hslash
      simp only [startsWith_quote r r', runLength_quote hdigits r r']
    · split
      · next heq => exact absurd (List.cons.inj heq).1 hslash
      · split
        · next heq => exact absurd (List.cons.inj heq).1 hslash
        · rfl

theorem possessiveLexeme_quote (r r' : List Char) :
    possessiveLexeme (w ++ '"' :: r) = possessiveLexeme (w ++ '"' :: r') := by
  cases w with
  | nil => rfl
  | cons d w =>
    rw [List.cons_append, List.cons_append, possessiveLexeme, possessiveLexeme, startsWith_quote r r']

/-- A comment that ends stays one with more behind it. -/
theorem commentLength_extend {depth : Nat} (h : commentLength depth cs = some n) (more : List Char) :
    commentLength depth (cs ++ more) = some n := by
  induction cs generalizing depth n with
  | nil => cases h
  | cons d cs ih =>
    rw [commentLength] at h
    have hlater {depth : Nat} (h : (commentLength depth cs).map (· + 1) = some n) :
        (commentLength depth (cs ++ more)).map (· + 1) = some n := by
      obtain ⟨m, hm, rfl⟩ := Option.map_eq_some_iff.1 h
      rw [ih hm, Option.map_some]
    rw [List.cons_append, commentLength]
    split at h
    · next hopen => rw [if_pos hopen, hlater h]
    · next hopen =>
      rw [if_neg hopen]
      split at h
      · next hclose =>
        rw [if_pos hclose]
        split at h
        · next hdepth => rw [if_pos hdepth, h]
        · next hdepth => rw [if_neg hdepth, hlater h]
      · next hclose => rw [if_neg hclose, hlater h]

/-- A quoted text ends at the first double quote. -/
theorem quotedLength_quote (h : '"' ∉ cs) (more : List Char) :
    quotedLength (cs ++ '"' :: more) = some (cs.length + 1) := by
  induction cs with
  | nil => rfl
  | cons d cs ih =>
    rw [List.mem_cons, not_or] at h
    rw [List.cons_append, quotedLength, if_neg (Ne.symm h.1), ih h.2]
    rfl

theorem quotedLength_extend (h : quotedLength cs = some n) (more : List Char) :
    quotedLength (cs ++ more) = some n := by
  induction cs generalizing n with
  | nil => cases h
  | cons d cs ih =>
    rw [quotedLength] at h
    rw [List.cons_append, quotedLength]
    split at h
    · next hquote => rw [if_pos hquote, h]
    · next hquote =>
      obtain ⟨m, hm, rfl⟩ := Option.map_eq_some_iff.1 h
      rw [if_neg hquote, ih hm, Option.map_some]

theorem delimited_quote {length? : List Char → Option Nat} {k : Kind}
    (hfound : ∀ {n}, length? (w ++ '"' :: r) = some n → n ≤ w.length → length? (w ++ '"' :: r') = some n)
    (h : (delimited length? k (w ++ '"' :: r)).2 ≤ w.length) :
    delimited length? k (w ++ '"' :: r') = delimited length? k (w ++ '"' :: r) := by
  rw [delimited] at h
  rw [delimited, delimited]
  cases hlength : length? (w ++ '"' :: r) with
  | some n =>
    rw [hlength] at h
    rw [hfound hlength h]
  | none =>
    -- what stays open takes the double quote, too
    rw [hlength, List.length_append, List.length_cons] at h
    simp only at h
    omega

/-- A token in front of a double quote does not depend on what stands behind the quote. -/
theorem lexeme_quote (h : (lexeme c (w ++ '"' :: r)).2 ≤ w.length) (r' : List Char) :
    lexeme c (w ++ '"' :: r') = lexeme c (w ++ '"' :: r) := by
  have hblank : isBlank '"' = false := by decide
  have hhex : isHexDigit '"' = false := by decide
  rw [lexeme.eq_def] at h ⊢
  rw [lexeme.eq_def c (w ++ '"' :: r)]
  split
  · rw [runLength_quote hblank r' r]
  · next hc =>
    rw [if_neg hc] at h
    -- one case for each first character that has a meaning of its own
    split
    case h_1 | h_2 | h_3 | h_4 => rfl
    case h_5 => rw [startsWith_quote r' r]
    case h_6 | h_7 => exact possessiveLexeme_quote r' r
    case h_8 =>
      exact delimited_quote (fun hn hle => commentLength_extend (commentLength_append hn hle) _) h
    case h_9 =>
      exact delimited_quote (fun hn hle => quotedLength_extend (quotedLength_append hn hle) _) h
    case h_10 => rw [startsWith_quote r' r, runLength_quote hhex r' r]
    case h_11 =>
      split
      · exact numberLexeme_quote r' r
      · split
        · next hdigit hletter =>
          simp only [hdigit, hletter, Bool.false_eq_true, if_true, if_false] at h
          simp only [wordLength_quote r' r, List.take_append_of_le_length h]
        · rfl

/-! Tokens around a quoted text. -/

/-- Where a token starts at a double quote, it does so whatever stands behind. -/
theorem Meets.requote {before : List Char} (h : Meets before ('"' :: r)) (r' : List Char) :
    Meets before ('"' :: r') := by
  generalize hafter : '"' :: r = after at h
  induction h with
  | start => exact .start
  | @token c rest before after hrest h ih =>
    subst hafter
    have hlt : (lexeme c rest).2 < rest.length := by
      rw [← Nat.not_le]
      intro hle
      rw [List.drop_eq_nil_of_le hle] at hrest
      exact absurd hrest.symm (by simp)
    have htake : (rest.take (lexeme c rest).2).length = (lexeme c rest).2 := by
      rw [List.length_take, Nat.min_eq_left (Nat.le_of_lt hlt)]
    have hsplit : (rest.take (lexeme c rest).2 ++ before) ++ '"' :: r = rest := by
      rw [List.append_assoc, ← hrest, List.take_append_drop]
    have hsame : lexeme c ((rest.take (lexeme c rest).2 ++ before) ++ '"' :: r') = lexeme c rest := by
      rw [lexeme_quote (by rw [hsplit, List.length_append, htake]; omega), hsplit]
    have htoken := @Meets.token c ((rest.take (lexeme c rest).2 ++ before) ++ '"' :: r') before ('"' :: r')
    rw [hsame, List.append_assoc, List.take_left' htake, List.drop_left' htake] at htoken
    exact htoken rfl (ih rfl)

/-- The tokens in front of a double quote at which one starts are those of the text in front. -/
theorem scanFrom_requote {t : Token} {before : List Char} (h : t ∈ scanFrom offset (before ++ '"' :: r))
    (hstart : t.start = offset + byteLength before) (r' : List Char) :
    scanFrom offset (before ++ '"' :: r') =
      (scanFrom offset before).dropLast ++ scanFrom (offset + byteLength before) ('"' :: r') := by
  obtain ⟨front, after, hsplit, hfront, hmeets⟩ := exists_meets h
  have hlength : byteLength front = byteLength before := by omega
  have hsame : front = before := by
    have htake := takeBytes_append_of_le ('"' :: r) (Nat.le_refl (byteLength before))
    rw [hsplit, ← hlength, takeBytes_append_of_le after (Nat.le_refl _), takeBytes_self, hlength,
      takeBytes_self] at htake
    exact htake
  subst hsame
  obtain rfl : '"' :: r = after := List.append_cancel_left hsplit
  exact (hmeets.requote r').scanFrom_append offset

/-- A quoted text is one token. -/
theorem scanFrom_quote (h : '"' ∉ cs) (offset : Nat) (more : List Char) :
    scanFrom offset ('"' :: (cs ++ '"' :: more)) =
      ⟨.stringLiteral, String.ofList ('"' :: (cs ++ ['"'])), offset, offset + (byteLength cs + 2)⟩ ::
        scanFrom (offset + (byteLength cs + 2)) more := by
  have hlexeme : lexeme '"' (cs ++ '"' :: more) = (.stringLiteral, cs.length + 1) := by
    rw [lexeme.eq_def, if_neg (by decide)]
    simp only [quotedLength_quote h]
  have hsplit : cs ++ '"' :: more = (cs ++ ['"']) ++ more := by simp
  have htake : (cs ++ '"' :: more).take (cs.length + 1) = cs ++ ['"'] := by
    rw [hsplit, List.take_left' (by simp)]
  have hdrop : (cs ++ '"' :: more).drop (cs.length + 1) = more := by
    rw [hsplit, List.drop_left' (by simp)]
  have hbytes : byteLength ('"' :: (cs ++ ['"'])) = byteLength cs + 2 := by
    rw [byteLength_cons, byteLength_append]
    show 1 + (byteLength cs + 1) = _
    omega
  rw [scanFrom, hlexeme, htake, hdrop, hbytes]

end Prose.Token
