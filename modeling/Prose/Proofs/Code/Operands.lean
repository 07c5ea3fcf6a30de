import Prose.Code.Convert
import Prose.Proofs.Code.Arithmetic
import Prose.Proofs.Code.Grouping
import Prose.Proofs.Grammar.Derivation
import Prose.Proofs.Grammar.Soundness
import Prose.Proofs.Token.Spelling

/- Operands in code. A code without a sign, without a quote and without a bracket in it is one
   operand, and so are a text between quotes and bytes between brackets. What is read of tokens
   that are spelled as their kinds ask for is printed in no other way: their numbers have no
   minus sign, and their names have nothing in them but letters, numerals, underscores, hyphens
   and spaces, of which the last two are printed as underscores. -/
namespace Prose

open Grammar

variable {escapes : Char → Bool} {target : Target}

namespace Code

/-! Codes that are one operand. -/

/-- Whether a character has a meaning between operands. -/
def isSeparator : Char → Bool
  | '.' | '*' | '/' | '+' | '-' | '"' | '(' | '[' | '\x7b' | ')' | ']' | '\x7d' => true
  | _ => false

variable {c : Char} {cs : List Char} {text : String}

theorem signOf?_of_not_separator (h : isSeparator c = false) : signOf? c = none := by
  unfold signOf?
  split <;> first | rfl | cases h

/-- Other characters go on with an operand at its place. -/
theorem follow_of_not_separator (h : ∀ c ∈ cs, isSeparator c = false) (depth : Nat) :
    (Place.code depth).follow escapes cs = some (.code depth) := by
  refine Place.follow_of_stays fun c hc => ⟨?_, fun _ => signOf?_of_not_separator (h c hc)⟩
  have hother {d : Char} (hd : isSeparator d = true) : c ≠ d := by
    rintro rfl
    rw [h c hc] at hd
    cases hd
  have hopen : c ∉ ['(', '[', '\x7b'] := by
    simp only [List.mem_cons, List.not_mem_nil, or_false, not_or]
    exact ⟨hother rfl, hother rfl, hother rfl⟩
  have hclose : c ∉ [')', ']', '\x7d'] := by
    simp only [List.mem_cons, List.not_mem_nil, or_false, not_or]
    exact ⟨hother rfl, hother rfl, hother rfl⟩
  rw [Place.next, if_neg (hother rfl), if_neg hopen, if_neg hclose]

theorem isOperand_of_not_separator (h : ∀ c ∈ text.toList, isSeparator c = false ∧ c ≠ ' ') :
    IsOperand escapes text := by
  refine isOperand_of_follow (follow_of_not_separator (fun c hc => (h c hc).1) 0) ?_ ?_
  · exact fun hfirst => (h ' ' (List.mem_of_head? hfirst)).2 rfl
  · exact fun hlast => (h ' ' (List.mem_of_getLast? hlast)).2 rfl

theorem not_separator_of_isDecimalDigit (h : Text.isDecimalDigit c = true) :
    isSeparator c = false ∧ c ≠ ' ' := by
  constructor
  · unfold isSeparator
    split <;> first | rfl | exact absurd h (by decide)
  · rintro rfl
    exact absurd h (by decide)

/-- Of what may stand in a name, only the hyphen has a meaning between operands. -/
theorem not_separator_of_isWordCharacter (h : Token.isWordCharacter c = true) (hhyphen : c ≠ '-') :
    isSeparator c = false := by
  unfold isSeparator
  split <;> first | rfl | exact absurd rfl hhyphen | exact absurd h (by decide)

/-- A number that is not negative is printed without a sign. -/
theorem isDecimalDigit_of_mem_toString {n : Int} (hn : 0 ≤ n) (h : c ∈ (toString n).toList) :
    Text.isDecimalDigit c = true := by
  rw [Int.toString_eq_repr, Int.repr_eq_if, if_pos hn, Nat.toList_repr] at h
  exact Text.isDecimalDigit_of_mem_toDigits h

theorem isOperand_int {n : Int} (hn : 0 ≤ n) : IsOperand escapes (toString n) :=
  isOperand_of_not_separator fun _ hc =>
    not_separator_of_isDecimalDigit (isDecimalDigit_of_mem_toString hn hc)

/-- A text in double quotes, without a double quote or an escaping character in it. -/
theorem isOperand_quoted {v : String} (hquote : '"' ∉ v.toList)
    (hescapes : ∀ c ∈ v.toList, escapes c = false) :
    IsOperand escapes ("\"" ++ v ++ "\"") := by
  have htext : ("\"" ++ v ++ "\"").toList = '"' :: (v.toList ++ ['"']) := by
    rw [String.toList_append, String.toList_append, List.append_assoc]
    rfl
  have hinner : (Place.quoted 0).follow escapes v.toList = some (.quoted 0) := by
    refine Place.follow_of_stays fun c hc => ⟨?_, nofun⟩
    have hc' : c ≠ '"' := fun heq => hquote (heq ▸ hc)
    rw [Place.next, if_neg hc', hescapes c hc]
    rfl
  refine isOperand_of_follow ?_ ?_ ?_ <;> rw [htext]
  · show (Place.quoted 0).follow escapes (v.toList ++ ['"']) = _
    rw [Place.follow_append, hinner]
    rfl
  · simp
  · rw [← List.cons_append, List.getLast?_concat]
    simp

theorem forall_mem_intercalate {P : Char → Prop} {separator : String} {texts : List String}
    (hseparator : ∀ c ∈ separator.toList, P c) (h : ∀ t ∈ texts, ∀ c ∈ t.toList, P c) :
    ∀ c ∈ (separator.intercalate texts).toList, P c := by
  induction texts with
  | nil => exact nofun
  | cons t texts ih =>
    rw [List.forall_mem_cons] at h
    rcases eq_or_ne texts [] with rfl | hne
    · rw [String.intercalate_singleton]
      exact h.1
    · rw [String.intercalate_cons_of_ne_nil hne, String.toList_append, String.toList_append,
        List.forall_mem_append, List.forall_mem_append]
      exact ⟨⟨h.1, hseparator⟩, ih h.2⟩

/-- Characters of an operand between an opening and its end. -/
theorem isOperand_between {opening inner closing : String} {depth : Nat}
    (hopening : (Place.code 0).follow escapes opening.toList = some (.code depth))
    (hclosing : (Place.code depth).follow escapes closing.toList = some (.code 0))
    (hinner : ∀ c ∈ inner.toList, isSeparator c = false)
    (hfirst : ∃ c ∈ opening.toList.head?, c ≠ ' ') (hlast : ∃ c ∈ closing.toList.getLast?, c ≠ ' ') :
    IsOperand escapes (opening ++ inner ++ closing) := by
  obtain ⟨c, hc, hcspace⟩ := hfirst
  obtain ⟨d, hd, hdspace⟩ := hlast
  refine isOperand_of_follow ?_ ?_ ?_ <;> rw [String.toList_append, String.toList_append]
  · rw [Place.follow_append, Place.follow_append, hopening, Option.bind_some,
      follow_of_not_separator hinner, Option.bind_some, hclosing]
  · rw [List.append_assoc, List.head?_append, hc]
    simpa using hcspace
  · rw [List.getLast?_append, hd]
    simpa using hdspace

/-- Bytes are numbers within brackets. -/
theorem isOperand_bytes (bs : List UInt8) :
    IsOperand escapes (target.dialect.bytes (bs.map fun b => toString b.toNat)) := by
  have hinner : ∀ c ∈ (", ".intercalate (bs.map fun b => toString b.toNat)).toList,
      isSeparator c = false := by
    refine forall_mem_intercalate (by simp [isSeparator]) (List.forall_mem_map.2 fun b _ c hc => ?_)
    rw [Nat.toString_eq_repr, Nat.toList_repr] at hc
    exact (not_separator_of_isDecimalDigit (Text.isDecimalDigit_of_mem_toDigits hc)).1
  cases target with
  | csharp =>
    have hopening : (Place.code 0).follow escapes "new byte[] \x7b ".toList = some (.code 1) := rfl
    have hclosing : (Place.code 1).follow escapes " \x7d".toList = some (.code 0) := rfl
    exact isOperand_between hopening hclosing hinner ⟨'n', rfl, by decide⟩ ⟨'\x7d', rfl, by decide⟩
  | javascript =>
    have hopening : (Place.code 0).follow escapes "new Uint8Array([".toList = some (.code 2) := rfl
    have hclosing : (Place.code 2).follow escapes "])".toList = some (.code 0) := rfl
    exact isOperand_between hopening hclosing hinner ⟨'n', rfl, by decide⟩ ⟨')', rfl, by decide⟩

/-- A name as it is printed. -/
theorem isOperand_identifier {name : String}
    (h : ∀ c ∈ name.toList, Token.isWordCharacter c = true ∨ c = ' ') :
    IsOperand escapes (target.dialect.identifier name) := by
  have hmangle : IsOperand escapes (mangle name) := by
    refine isOperand_of_not_separator fun c hc => ?_
    rw [mangle, String.toList_ofList] at hc
    obtain ⟨d, hd, rfl⟩ := List.mem_map.1 hc
    split
    · decide
    · next hkept =>
      simp only [not_or] at hkept
      have hword := (h d hd).resolve_right hkept.1
      exact ⟨not_separator_of_isWordCharacter hword hkept.2.1, hkept.1⟩
  cases target with
  | javascript => exact hmangle
  | csharp =>
    show IsOperand escapes (CSharp.identifier name)
    rw [CSharp.identifier]
    split
    · next hname =>
      rcases hname with rfl | rfl <;> exact isOperand_of_not_separator (by simp [isSeparator])
    · exact hmangle

/-! Codes that are a row of operands. -/

/-- Operands with dots between them. -/
theorem chain_intercalate {texts : List String} (hne : texts ≠ [])
    (h : ∀ t ∈ texts, IsOperand escapes t) :
    Closed escapes (".".intercalate texts) ∧
      ∀ item ∈ (rowOf escapes (".".intercalate texts)).front, item.2 = .member := by
  induction texts with
  | nil => exact absurd rfl hne
  | cons t texts ih =>
    obtain ⟨ht, hrest⟩ := List.forall_mem_cons.1 h
    rcases eq_or_ne texts [] with rfl | hne
    · rw [String.intercalate_singleton, ht.row]
      exact ⟨ht.closed, nofun⟩
    · obtain ⟨hclosed, hmember⟩ := ih hne hrest
      obtain ⟨hrow, hends⟩ := scan_separated ht.closed separates_member (".".intercalate texts)
      rw [String.intercalate_cons_of_ne_nil hne, hrow, hends, ht.row]
      exact ⟨hclosed, List.forall_mem_cons.2 ⟨rfl, hmember⟩⟩

/-- Operands with a sign between them. -/
theorem row_pair {a between b : String} {sign : Sign} (ha : IsOperand escapes a)
    (hb : IsOperand escapes b) (h : Separates escapes between sign) :
    Closed escapes (a ++ between ++ b) ∧ rowOf escapes (a ++ between ++ b) = ⟨[(a, sign)], b⟩ := by
  obtain ⟨hrow, hends⟩ := scan_separated ha.closed h b
  rw [hends, hrow, ha.row, hb.row]
  exact ⟨hb.closed, rfl⟩

end Code

/-! What is read of spelled tokens. -/

namespace Text

variable {text : String} {n d : Int}

theorem nonneg_of_readInteger (hdigits : ∀ c ∈ text.toList, isDecimalDigit c = true)
    (h : readInteger text = some n) : 0 ≤ n := by
  have hvalue := (Option.filter_eq_some_iff.1 h).1
  split at hvalue
  · next hsign =>
    rw [hsign, List.forall_mem_cons] at hdigits
    exact absurd hdigits.1 (by decide)
  · obtain ⟨m, -, rfl⟩ := Option.map_eq_some_iff.1 hvalue
    exact Int.natCast_nonneg m
  · obtain ⟨m, -, rfl⟩ := Option.map_eq_some_iff.1 hvalue
    exact Int.natCast_nonneg m

end Text

namespace Grammar

variable {ts : List Token} {room : Nat}

theorem nonneg_of_readRatio {text : String} {n d : Int} {numerator denominator : List Char}
    (htext : text.toList = numerator ++ '/' :: denominator)
    (hn : ∀ c ∈ numerator, Text.isDecimalDigit c = true)
    (hd : ∀ c ∈ denominator, Text.isDecimalDigit c = true) (h : readRatio text = some (n, d)) :
    0 ≤ n ∧ 0 ≤ d := by
  have hslash : ∀ c ∈ numerator, (c != '/') = true := by
    intro c hc
    rw [bne_iff_ne]
    rintro rfl
    exact absurd (hn _ hc) (by decide)
  have htake : text.toList.takeWhile (· != '/') = numerator := by
    rw [htext, List.takeWhile_append_of_pos hslash]
    simp
  have hdrop : text.toList.dropWhile (· != '/') = '/' :: denominator := by
    rw [htext, List.dropWhile_append_of_pos hslash]
    simp
  simp only [readRatio, htake, hdrop] at h
  split at h
  · next hreadn hreadd =>
    cases h
    constructor
    · exact Text.nonneg_of_readInteger (by rwa [String.toList_ofList]) hreadn
    · exact Text.nonneg_of_readInteger (by rwa [String.toList_ofList]) hreadd
  · cases h

/-- Between the words of a name there are spaces. -/
theorem Words.isWordCharacter {name : String} (h : Words name ts) (hts : ∀ t ∈ ts, t.Spelled) :
    ∀ c ∈ name.toList, Token.isWordCharacter c = true ∨ c = ' ' := by
  obtain ⟨-, hkinds, rfl⟩ := h
  refine Code.forall_mem_intercalate (by simp) (List.forall_mem_map.2 fun t ht c hc => .inl ?_)
  have hspelled := hts t ht
  rw [Token.Spelled, hkinds t ht] at hspelled
  exact hspelled c hc

/-- So it is with the names of a reference. -/
theorem ReferenceFrom.isWordCharacter {r : Reference} (h : ReferenceFrom room r ts)
    (hts : ∀ t ∈ ts, t.Spelled) :
    ∀ name ∈ r.path, ∀ c ∈ name.toList, Token.isWordCharacter c = true ∨ c = ' ' := by
  induction h with
  | name _ hname =>
    rw [path_plain, List.forall_mem_singleton]
    exact hname.isWordCharacter fun t ht => hts t (by grind)
  | slot _ _ _ hname ih =>
    rw [path_slot, List.forall_mem_append, List.forall_mem_singleton]
    exact ⟨ih fun t ht => hts t (by grind), hname.isWordCharacter fun t ht => hts t (by grind)⟩
  | owned _ _ _ ihr ihowner =>
    rw [path_withRootOwner, List.forall_mem_append]
    exact ⟨ihowner fun t ht => hts t (by grind), ihr fun t ht => hts t (by grind)⟩

end Grammar

end Prose
