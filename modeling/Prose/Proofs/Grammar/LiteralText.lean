import Prose.Grammar.Expression
import Prose.Proofs.Token.Runs

/- Texts of literals. The text that is written for a number, for some bytes, for a ratio
   or for a quoted text is read back as the same value. -/
namespace Prose.Text

/-! Whole numbers. -/

theorem isDecimalDigit_of_mem_toDigits {c : Char} {n : Nat} (h : c ∈ Nat.toDigits 10 n) :
    isDecimalDigit c = true := by
  have hdigit := Nat.isDigit_of_mem_toDigits (by decide) (by decide) h
  simp only [Char.isDigit, Bool.and_eq_true, decide_eq_true_eq, ge_iff_le] at hdigit
  simp only [isDecimalDigit, Bool.and_eq_true, decide_eq_true_eq]
  exact hdigit

theorem readDigits_toDigits (n : Nat) : readDigits (Nat.toDigits 10 n) = some n := by
  have hall : (Nat.toDigits 10 n).all isDecimalDigit = true :=
    List.all_eq_true.2 fun _ => isDecimalDigit_of_mem_toDigits
  have hvalue : digitsValue 0 (Nat.toDigits 10 n) = n :=
    Nat.ofDigitChars_toDigits (by decide) (by decide)
  rw [readDigits, if_pos ⟨Nat.toDigits_ne_nil, hall⟩, hvalue]

/-- A number is read back from its decimal text. -/
theorem readInteger_repr {n : Int} (h : fitsInteger n = true) : readInteger n.repr = some n := by
  have hsign (m : Nat) (c : Char) (hc : isDecimalDigit c = false) (ds : List Char) :
      Nat.toDigits 10 m ≠ c :: ds := by
    intro hd
    have hdigit := isDecimalDigit_of_mem_toDigits (n := m) (hd ▸ List.mem_cons_self)
    rw [hc] at hdigit
    exact Bool.false_ne_true hdigit
  rw [Int.repr_eq_if]
  split
  · next hn =>
    simp only [readInteger, Nat.toList_repr]
    split
    · next hd => exact absurd hd (hsign _ _ (by decide) _)
    · next hd => exact absurd hd (hsign _ _ (by decide) _)
    · rw [readDigits_toDigits, Option.map_some, Int.ofNat_eq_natCast, Int.toNat_of_nonneg hn,
        Option.filter_some, if_pos h]
  · next hn =>
    have htext : ("-" ++ (-n).toNat.repr).toList = '-' :: Nat.toDigits 10 (-n).toNat := by
      rw [String.toList_append, Nat.toList_repr]
      rfl
    have hvalue : -((-n).toNat : Int) = n := by omega
    simp only [readInteger, htext, readDigits_toDigits]
    show (some (-((-n).toNat : Int))).filter fitsInteger = some n
    rw [hvalue, Option.filter_some, if_pos h]

/-- The text of a number has nothing but digits and a sign. -/
theorem isDecimalDigit_or_of_mem_repr {c : Char} {n : Int} (h : c ∈ n.repr.toList) :
    isDecimalDigit c = true ∨ c = '-' := by
  rw [Int.repr_eq_if] at h
  split at h
  · exact .inl (isDecimalDigit_of_mem_toDigits (Nat.toList_repr ▸ h))
  · rw [String.toList_append, Nat.toList_repr] at h
    rcases List.mem_append.1 h with h | h
    · exact .inr (List.mem_singleton.1 h)
    · exact .inl (isDecimalDigit_of_mem_toDigits h)

/-! Bytes. -/

theorem hexDigit_digitChar :
    ∀ d < 16, isHexDigit (Nat.digitChar d) = true ∧ hexDigitValue (Nat.digitChar d) = d := by
  decide

theorem hexPairs_showByte (b : UInt8) (cs : List Char) :
    hexPairs (showByte b ++ cs) = b :: hexPairs cs := by
  have hb : b.toNat < 256 := b.toNat_lt
  have hhigh := hexDigit_digitChar (b.toNat / 16) (by omega)
  have hlow := hexDigit_digitChar (b.toNat % 16) (by omega)
  simp only [showByte, List.cons_append, List.nil_append, hexPairs, hhigh.2, hlow.2]
  rw [Nat.div_add_mod, UInt8.ofNat_toNat]

/-- Bytes are read back from their hexadecimal digits. -/
theorem readBytes_showByte (bs : List UInt8) : readBytes (bs.flatMap showByte) = some bs := by
  have hall : (bs.flatMap showByte).all isHexDigit = true := by
    refine List.all_eq_true.2 fun c hc => ?_
    obtain ⟨b, -, hb⟩ := List.mem_flatMap.1 hc
    have hlt : b.toNat < 256 := b.toNat_lt
    rcases List.mem_cons.1 hb with rfl | hb
    · exact (hexDigit_digitChar _ (by omega)).1
    · rw [List.mem_singleton.1 hb]
      exact (hexDigit_digitChar _ (by omega)).1
  have heven : (bs.flatMap showByte).length % 2 = 0 := by
    induction bs with
    | nil => rfl
    | cons b bs ih =>
      rw [List.flatMap_cons, List.length_append]
      have hlength : (showByte b).length = 2 := rfl
      have := ih (List.all_eq_true.2 fun c hc => List.all_eq_true.1 hall c
        (List.mem_append_right _ hc))
      omega
  have hpairs : hexPairs (bs.flatMap showByte) = bs := by
    clear hall heven
    induction bs with
    | nil => rfl
    | cons b bs ih => rw [List.flatMap_cons, hexPairs_showByte, ih]
  rw [readBytes, if_pos hall, if_neg (by omega), hpairs]

end Prose.Text

namespace Prose.Grammar

/-- A ratio is read back from its two numbers. -/
theorem readRatio_repr {n d : Int} (hn : Text.fitsInteger n = true)
    (hd : Text.fitsInteger d = true) : readRatio (n.repr ++ "/" ++ d.repr) = some (n, d) := by
  have hslash : ∀ c ∈ n.repr.toList, (c != '/') = true := by
    intro c hc
    rw [bne_iff_ne]
    rintro rfl
    rcases Text.isDecimalDigit_or_of_mem_repr hc with h | h <;> exact absurd h (by decide)
  have htext : (n.repr ++ "/" ++ d.repr).toList = n.repr.toList ++ '/' :: d.repr.toList := by
    rw [String.toList_append, String.toList_append, List.append_assoc]
    rfl
  have hstop : ∀ c ∈ ('/' :: d.repr.toList).head?, (c != '/') = false := by simp
  have htake : (n.repr.toList ++ '/' :: d.repr.toList).takeWhile (· != '/') = n.repr.toList :=
    Token.takeWhile_run hslash hstop
  have hdrop : (n.repr.toList ++ '/' :: d.repr.toList).dropWhile (· != '/') =
      '/' :: d.repr.toList := Token.dropWhile_run hslash hstop
  simp only [readRatio, htext, htake, hdrop, String.ofList_toList, Text.readInteger_repr hn,
    Text.readInteger_repr hd]

/-- A text without double quotes is read back from between them. -/
theorem unquote_quoted {s : String} (h : '"' ∉ s.toList) : unquote ("\"" ++ s ++ "\"") = s := by
  have hkeep (cs : List Char) (hcs : '"' ∉ cs) : cs.dropWhile (· == '"') = cs := by
    cases cs with
    | nil => rfl
    | cons c cs =>
      refine List.dropWhile_cons_of_neg fun hc => hcs ?_
      exact eq_of_beq hc ▸ List.mem_cons_self
  have hquote (cs : List Char) : ('"' :: cs).dropWhile (· == '"') = cs.dropWhile (· == '"') := rfl
  have htext : ("\"" ++ s ++ "\"").toList = '"' :: (s.toList ++ ['"']) := by
    rw [String.toList_append, String.toList_append, List.append_assoc]
    rfl
  have hopened : (s.toList ++ ['"']).dropWhile (· == '"') = s.toList ++ ['"'] ∨ s.toList = [] := by
    cases hs : s.toList with
    | nil => exact .inr rfl
    | cons c cs =>
      refine .inl (List.dropWhile_cons_of_neg fun hc => h ?_)
      rw [hs]
      exact eq_of_beq hc ▸ List.mem_cons_self
  simp only [unquote, htext, hquote]
  rcases hopened with hopened | hempty
  · rw [hopened, List.reverse_append, List.reverse_singleton, List.singleton_append, hquote,
      hkeep _ (mt List.mem_reverse.1 h), List.reverse_reverse, String.ofList_toList]
  · rw [hempty, ← String.ofList_toList (s := s), hempty]
    rfl

end Prose.Grammar
