import Prose.Proofs.Token.Edges

/- Spellings. What the characters of a token are follows from its kind: a name consists of
   letters, numerals, underscores and hyphens, a number of digits, and a quoted text has
   double quotes at its ends and nowhere else. -/
namespace Prose.Token

open Text

variable {c : Char} {cs rest : List Char} {t : Token}

/-- Whether a character may stand in a name. -/
def isWordCharacter (c : Char) : Bool := isLetterOrNumeral c || c == '_' || c == '-'

/-- What the characters are of a token of a kind, for the kinds whose texts are used for what
    they say. -/
def Spelling : Kind → List Char → Prop
  | .identifier, cs => ∀ c ∈ cs, isWordCharacter c = true
  | .intLiteral, cs => ∀ c ∈ cs, isDecimalDigit c = true
  | .ratioLiteral, cs => ∃ numerator denominator, cs = numerator ++ '/' :: denominator ∧
      (∀ c ∈ numerator, isDecimalDigit c = true) ∧ ∀ c ∈ denominator, isDecimalDigit c = true
  | .stringLiteral, cs => ∃ inner, '"' ∉ inner ∧ cs = '"' :: (inner ++ ['"'])
  | _, _ => True

/-- A token is spelled as its kind asks for. -/
def Spelled (t : Token) : Prop := Spelling t.kind t.text.toList

/-- All other kinds leave the spelling open. -/
theorem spelling_of_not_mem {k : Kind}
    (h : k ∉ [.identifier, .intLiteral, .ratioLiteral, .stringLiteral]) (cs : List Char) :
    Spelling k cs := by
  cases k <;> trivial

/-! The spelling of each sort of lexeme. -/

theorem spelling_word (h : ∀ d ∈ cs, isWordCharacter d = true) :
    Spelling ((Kind.ofKeyword? (String.ofList cs)).getD .identifier) cs := by
  have hkeywords : ∀ k ∈ keywordKinds.map Prod.snd,
      k ∉ [.identifier, .intLiteral, .ratioLiteral, .stringLiteral] := by decide
  rcases hkind : Kind.ofKeyword? (String.ofList cs) with _ | k
  · exact h
  · exact spelling_of_not_mem (hkeywords k (ofKeyword?_mem hkind)) cs

theorem isWordCharacter_of_mem_take_wordLength :
    ∀ d ∈ rest.take (wordLength rest), isWordCharacter d = true := by
  fun_induction wordLength rest with
  | case1 => exact fun d hd => absurd hd List.not_mem_nil
  | case2 c rest hc ih =>
    rw [List.take_succ_cons, List.forall_mem_cons]
    exact ⟨by rw [isWordCharacter, hc, Bool.true_or], ih⟩
  | case3 c rest _ hhyphen ih =>
    rw [List.take_succ_cons, List.forall_mem_cons]
    exact ⟨by rw [isWordCharacter, (Bool.and_eq_true_iff.1 hhyphen).1, Bool.or_true], ih⟩
  | case4 => exact fun d hd => absurd hd List.not_mem_nil

/-- A run takes characters of its class only. -/
theorem of_mem_take_runLength {class? : Char → Bool} :
    ∀ d ∈ rest.take (runLength class? rest), class? d = true := by
  intro d hd
  rw [runLength, ← (List.prefix_iff_eq_take.1 (List.takeWhile_prefix class?))] at hd
  exact List.all_eq_true.1 List.all_takeWhile d hd

theorem spelling_number (hc : isDecimalDigit c = true) :
    Spelling (numberLexeme rest).1 (c :: rest.take (numberLexeme rest).2) := by
  have hdigits : ∀ d ∈ c :: rest.take (runLength isDecimalDigit rest), isDecimalDigit d = true :=
    List.forall_mem_cons.2 ⟨hc, of_mem_take_runLength⟩
  rw [numberLexeme]
  split
  · next more hmore =>
    split
    · refine ⟨_, more.take (runLength isDecimalDigit more), ?_, hdigits, of_mem_take_runLength⟩
      rw [Nat.add_assoc, List.take_add, hmore, Nat.add_comm 1, List.take_succ_cons, List.cons_append]
    · exact hdigits
  · exact hdigits

theorem spelling_possessive :
    Spelling (possessiveLexeme rest).1 (c :: rest.take (possessiveLexeme rest).2) := by
  cases rest with
  | nil => trivial
  | cons d rest =>
    rw [possessiveLexeme]
    split <;> trivial

/-- What is quoted up to the first double quote has none in it. -/
theorem exists_inner_of_quotedLength {n : Nat} (h : quotedLength rest = some n) :
    ∃ inner, '"' ∉ inner ∧ rest.take n = inner ++ ['"'] := by
  induction rest generalizing n with
  | nil => cases h
  | cons d rest ih =>
    rw [quotedLength] at h
    split at h
    · next hquote =>
      obtain rfl := Option.some.inj h
      exact ⟨[], List.not_mem_nil, by rw [hquote]; rfl⟩
    · next hquote =>
      obtain ⟨m, hm, rfl⟩ := Option.map_eq_some_iff.1 h
      obtain ⟨inner, hinner, htake⟩ := ih hm
      refine ⟨d :: inner, ?_, by rw [List.take_succ_cons, htake, List.cons_append]⟩
      exact List.not_mem_cons_of_ne_of_not_mem (Ne.symm hquote) hinner

theorem spelling_lexeme (c : Char) (rest : List Char) :
    Spelling (lexeme c rest).1 (c :: rest.take (lexeme c rest).2) := by
  rw [lexeme.eq_def]
  split
  · trivial
  · -- one case for each first character that has a meaning of its own
    split
    case h_5 => split <;> trivial
    case h_6 | h_7 => exact spelling_possessive
    case h_8 => split <;> trivial
    case h_9 =>
      split
      · next hlength =>
        obtain ⟨inner, hinner, htake⟩ := exists_inner_of_quotedLength hlength
        exact ⟨inner, hinner, by rw [htake]⟩
      · trivial
    case h_10 => split <;> trivial
    case h_11 =>
      split
      · next hdigit => exact spelling_number hdigit
      · split
        · next hletter =>
          refine spelling_word (List.forall_mem_cons.2 ⟨?_, isWordCharacter_of_mem_take_wordLength⟩)
          rw [isWordCharacter, isLetterOrNumeral]
          rcases Bool.or_eq_true_iff.1 hletter with h | h <;> simp [h]
        · trivial
    all_goals trivial

/-- The tokens of a text are spelled as their kinds ask for. -/
theorem spelled_of_mem_scanFrom {offset : Nat} (h : t ∈ scanFrom offset cs) : t.Spelled := by
  by_cases hkind : t.kind = .stop
  · rw [Spelled, hkind]
    trivial
  · obtain ⟨c, rest, hlexeme, htext⟩ := lexeme_of_mem_scanFrom h hkind
    rw [Spelled, hlexeme, htext]
    exact spelling_lexeme c rest

end Prose.Token
