import Mathlib
import Prose.Grammar.Expression
import Prose.Machine.Run
import Prose.Proofs.Grammar.LiteralText
import Prose.Proofs.Token.Spelling

/- Byte arrays. What is shown for one is a single token, and reading that token gives the same
   bytes again. A token of any number of digits in either case is read, and shown with two
   lowercase digits for each byte. -/
namespace Prose

namespace Text

variable {c d : Char} {ds : List Char} {bs : List UInt8}

theorem digitChar_hexDigitValue (h : isHexDigit c = true) :
    hexDigitValue c < 16 ∧ Nat.digitChar (hexDigitValue c) = c.toLower := by
  have hsmall : ∀ n < 103, isHexDigit (Char.ofNat n) = true →
      hexDigitValue (Char.ofNat n) < 16 ∧
        Nat.digitChar (hexDigitValue (Char.ofNat n)) = (Char.ofNat n).toLower := by
    decide +kernel
  have hlt : c.toNat < 103 := by
    simp only [isHexDigit, isDecimalDigit, Bool.or_eq_true, Bool.and_eq_true, decide_eq_true_eq]
      at h
    rcases h with (⟨-, h⟩ | ⟨-, h⟩) | ⟨-, h⟩ <;> exact Nat.lt_of_le_of_lt h (by decide)
  rw [← Char.ofNat_toNat c] at h ⊢
  exact hsmall _ hlt h

/-- The byte of two digits is shown as the two in lowercase. -/
theorem showByte_pair (hc : isHexDigit c = true) (hd : isHexDigit d = true) :
    showByte (UInt8.ofNat (16 * hexDigitValue c + hexDigitValue d)) = [c.toLower, d.toLower] := by
  obtain ⟨hhigh, hshowHigh⟩ := digitChar_hexDigitValue hc
  obtain ⟨hlow, hshowLow⟩ := digitChar_hexDigitValue hd
  have hbyte : (UInt8.ofNat (16 * hexDigitValue c + hexDigitValue d)).toNat =
      16 * hexDigitValue c + hexDigitValue d := by
    rw [UInt8.toNat_ofNat', Nat.mod_eq_of_lt (by omega)]
  have hdiv : (16 * hexDigitValue c + hexDigitValue d) / 16 = hexDigitValue c := by omega
  have hmod : (16 * hexDigitValue c + hexDigitValue d) % 16 = hexDigitValue d := by omega
  rw [showByte, hbyte, hdiv, hmod, hshowHigh, hshowLow]

theorem showByte_hexPairs (hhex : ∀ c ∈ ds, isHexDigit c = true) (heven : ds.length % 2 = 0) :
    (hexPairs ds).flatMap showByte = ds.map Char.toLower := by
  fun_induction hexPairs ds with
  | case1 high low rest ih =>
    simp only [List.forall_mem_cons] at hhex
    obtain ⟨hhigh, hlow, hrest⟩ := hhex
    rw [List.length_cons, List.length_cons] at heven
    rw [List.flatMap_cons, showByte_pair hhigh hlow, ih hrest (by omega)]
    rfl
  | case2 ds hpair =>
    -- a single digit is not an even number of them
    match ds with
    | [] => rfl
    | [_] => cases heven
    | high :: low :: rest => exact absurd rfl (hpair high low rest)

/-- Digits as they are shown: in lowercase, and an even number of them. -/
def shownDigits (ds : List Char) : List Char :=
  (if ds.length % 2 = 1 then '0' :: ds else ds).map Char.toLower

/-- Any digits are read, and are shown with a zero before them if their number is odd. -/
theorem readBytes_shown (h : ∀ c ∈ ds, isHexDigit c = true) :
    ∃ bs, readBytes ds = some bs ∧ bs.flatMap showByte = shownDigits ds := by
  refine ⟨_, by rw [readBytes, if_pos (List.all_eq_true.2 h)], ?_⟩
  rw [shownDigits]
  split
  · next hodd =>
    refine showByte_hexPairs (List.forall_mem_cons.2 ⟨by decide, h⟩) ?_
    rw [List.length_cons]
    omega
  · exact showByte_hexPairs h (by omega)

theorem isHexDigit_of_mem_showByte : ∀ c ∈ bs.flatMap showByte, isHexDigit c = true := by
  intro c hc
  obtain ⟨b, -, hb⟩ := List.mem_flatMap.1 hc
  have hlt : b.toNat < 256 := b.toNat_lt
  rcases List.mem_cons.1 hb with rfl | hb
  · exact (hexDigit_digitChar _ (by omega)).1
  · rw [List.mem_singleton.1 hb]
    exact (hexDigit_digitChar _ (by omega)).1

end Text

/-! ### The token -/

namespace Token

open Text

variable {ds rest : List Char} {c : Char} {t : Token}

theorem runLength_eq_length {class? : Char → Bool} (h : ∀ c ∈ ds, class? c = true) :
    runLength class? ds = ds.length := by
  rw [runLength, List.takeWhile_eq_self_iff.2 h]

/-- Digits after a dollar sign are one token. -/
theorem scanFrom_digits (offset : Nat) (hne : ds ≠ []) (h : ∀ c ∈ ds, isHexDigit c = true) :
    scanFrom offset ('$' :: ds) =
      [⟨.byteArrayLiteral, String.ofList ('$' :: ds), offset, offset + byteLength ('$' :: ds)⟩,
        ⟨.stop, "", offset + byteLength ('$' :: ds), offset + byteLength ('$' :: ds)⟩] := by
  have hstarts : startsWith isHexDigit ds = true := by
    obtain ⟨c, rest, rfl⟩ := List.exists_cons_of_ne_nil hne
    exact h c List.mem_cons_self
  have hlexeme : lexeme '$' ds = (.byteArrayLiteral, ds.length) := by
    rw [lexeme, if_neg (by decide)]
    simp only [hstarts, if_pos, runLength_eq_length h]
  rw [scanFrom]
  simp only [hlexeme, List.take_length, List.drop_length]
  rw [scanFrom]

theorem word_ne_byteArrayLiteral (word : String) :
    (Kind.ofKeyword? word).getD .identifier ≠ .byteArrayLiteral := by
  have hkeywords : ∀ k ∈ keywordKinds.map Prod.snd, k ≠ .byteArrayLiteral := by decide
  rcases hword : Kind.ofKeyword? word with _ | k
  · nofun
  · exact hkeywords k (ofKeyword?_mem hword)

/-- Only digits behind a dollar sign are a token of this kind. -/
theorem digits_of_lexeme (h : (lexeme c rest).1 = .byteArrayLiteral) :
    c = '$' ∧ startsWith isHexDigit rest = true ∧
      (lexeme c rest).2 = runLength isHexDigit rest := by
  have hnumber : (numberLexeme rest).1 ≠ .byteArrayLiteral := by
    rw [numberLexeme]
    repeat' split
    all_goals rintro ⟨⟩
  have hpossessive : (possessiveLexeme rest).1 ≠ .byteArrayLiteral := by
    rw [possessiveLexeme.eq_def]
    repeat' split
    all_goals rintro ⟨⟩
  rw [lexeme.eq_def] at h ⊢
  split at h
  · cases h
  · next hblank =>
    rw [if_neg hblank]
    -- one case for each first character that has a meaning of its own
    split at h
    case h_5 => split at h <;> cases h
    case h_6 | h_7 => exact absurd h hpossessive
    case h_8 => split at h <;> cases h
    case h_9 => split at h <;> cases h
    case h_10 =>
      split at h
      · next hstarts => exact ⟨rfl, hstarts, by simp only [hstarts, if_pos]⟩
      · cases h
    case h_11 =>
      split at h
      · exact absurd h hnumber
      · split at h
        · exact absurd h (word_ne_byteArrayLiteral _)
        · cases h
    all_goals cases h

theorem exists_digits {offset : Nat} {cs : List Char} (ht : t ∈ scanFrom offset cs)
    (hkind : t.kind = .byteArrayLiteral) :
    ∃ ds, t.text.toList = '$' :: ds ∧ ds ≠ [] ∧ ∀ c ∈ ds, isHexDigit c = true := by
  obtain ⟨c, rest, hlexeme, htext⟩ := lexeme_of_mem_scanFrom ht (by rw [hkind]; nofun)
  obtain ⟨rfl, hstarts, hlength⟩ := digits_of_lexeme (hlexeme ▸ hkind)
  refine ⟨_, htext, ?_, ?_⟩
  · cases rest with
    | nil => cases hstarts
    | cons d rest =>
      have hd : isHexDigit d = true := hstarts
      rw [hlength, runLength, List.takeWhile_cons_of_pos hd]
      exact List.cons_ne_nil _ _
  · rw [hlength]
    exact of_mem_take_runLength

end Token

/-- A token of digits is read as their bytes. -/
theorem Grammar.Phrase.literal_bytes {p : Phrase} {s : Progress} {bs : List UInt8} {t : Token}
    (ht : p.tokenAt s.pos = t) (hkind : t.kind = .byteArrayLiteral)
    (hbytes : Text.readBytes (t.text.toList.drop 1) = some bs) :
    p.literal s = (some (.bytes bs (.ofToken t)), (p.advance s).2) := by
  show p.literal s = _
  simp only [Phrase.literal, bind, Rule.position, ht, hkind, hbytes]
  rfl

open Grammar Machine

/-- Wherever the token is looked at, the literal there is the bytes. -/
def IsRead (t : Token) (bs : List UInt8) : Prop :=
  ∀ (p : Phrase) (s : Progress), p.tokenAt s.pos = t →
    p.literal s = (some (.bytes bs (.ofToken t)), (p.advance s).2)

/-- What is shown for some bytes is one token, and is read as the same bytes. Every token of
    this kind is read, and what is shown for it are its digits in lowercase, with a zero before
    them if their number is odd. -/
theorem bytes_shown_and_read (offset : Nat) :
    (∀ bs : List UInt8, bs ≠ [] → ∃ t last,
      Token.scan offset (Value.bytes bs).show = [t, last] ∧ t.kind = .byteArrayLiteral ∧
        t.text = (Value.bytes bs).show ∧ last.kind = .stop ∧ IsRead t bs) ∧
    ∀ (text : String), ∀ t ∈ Token.scan offset text, t.kind = .byteArrayLiteral →
      ∃ ds bs, t.text = String.ofList ('$' :: ds) ∧ (∀ c ∈ ds, Text.isHexDigit c = true) ∧
        IsRead t bs ∧ (Value.bytes bs).show = String.ofList ('$' :: Text.shownDigits ds) := by
  constructor
  · intro bs hne
    have hhex : ∀ c ∈ bs.flatMap Text.showByte, Text.isHexDigit c = true :=
      Text.isHexDigit_of_mem_showByte
    have hshown : bs.flatMap Text.showByte ≠ [] := by
      obtain ⟨b, rest, rfl⟩ := List.exists_cons_of_ne_nil hne
      exact List.cons_ne_nil _ _
    have hscan := Token.scanFrom_digits offset hshown hhex
    rw [Token.scan, Value.show, String.toList_ofList]
    refine ⟨_, _, hscan, rfl, rfl, rfl, fun p s hp => Phrase.literal_bytes hp rfl ?_⟩
    rw [String.toList_ofList, List.drop_succ_cons, List.drop_zero]
    exact Text.readBytes_showByte bs
  · intro text t ht hkind
    obtain ⟨ds, htext, -, hhex⟩ := Token.exists_digits ht hkind
    obtain ⟨bs, hread, hshown⟩ := Text.readBytes_shown hhex
    refine ⟨ds, bs, ?_, hhex, fun p s hp => Phrase.literal_bytes hp hkind ?_, ?_⟩
    · rw [← htext, String.ofList_toList]
    · rw [htext, List.drop_succ_cons, List.drop_zero]
      exact hread
    · rw [Value.show, hshown]

/-- The bytes `0f 3a`, and the token `$F3a` that has three digits for them. -/
theorem bytes_shown_and_read_odd :
    let t : Token := ⟨.byteArrayLiteral, "$F3a", 4, 8⟩
    (∃ u last, Token.scan 0 (Value.bytes [0x0f, 0x3a]).show = [u, last] ∧
      u.kind = .byteArrayLiteral ∧ u.text = (Value.bytes [0x0f, 0x3a]).show ∧
      last.kind = .stop ∧ IsRead u [0x0f, 0x3a]) ∧
    t ∈ Token.scan 0 "put $F3a in a x" ∧ t.kind = .byteArrayLiteral ∧
      ∃ ds bs, t.text = String.ofList ('$' :: ds) ∧ (∀ c ∈ ds, Text.isHexDigit c = true) ∧
        IsRead t bs ∧ (Value.bytes bs).show = String.ofList ('$' :: Text.shownDigits ds) := by
  intro t
  have hthird : (Token.scan 0 "put $F3a in a x")[2]? = some t := by cbv
  have ht := List.mem_of_getElem? hthird
  exact ⟨(bytes_shown_and_read 0).1 _ (by decide), ht, rfl,
    (bytes_shown_and_read 0).2 _ t ht rfl⟩

end Prose
