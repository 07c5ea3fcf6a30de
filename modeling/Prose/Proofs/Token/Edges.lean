import Prose.Proofs.Text.Edge
import Prose.Proofs.Token.Lossless
import Prose.Proofs.Tree.Nested

/- Where tokens begin and end: between two characters of their text, and one behind the
   other. A token that is not blank begins with a character that is no blank, and it ends
   with one unless it goes on to the end of the text, as an open quote or comment does. -/
namespace Prose

open Text

namespace Token

variable {c : Char} {rest : List Char} {n : Nat}

theorem endsSolid_commentLength {depth : Nat} (h : commentLength depth rest = some n) :
    EndsSolid (rest.take n) := by
  fun_induction commentLength depth rest generalizing n with
  | case1 => cases h
  | case2 depth rest ih =>
    obtain ⟨m, hm, rfl⟩ := Option.map_eq_some_iff.1 h
    exact (ih hm).prepend [_]
  | case3 depth rest hopen hdepth =>
    obtain rfl := Option.some.inj h
    exact ⟨[], ')', rfl, by decide⟩
  | case4 depth rest hopen hdepth ih =>
    obtain ⟨m, hm, rfl⟩ := Option.map_eq_some_iff.1 h
    exact (ih hm).prepend [_]
  | case5 depth c rest hopen hclose ih =>
    obtain ⟨m, hm, rfl⟩ := Option.map_eq_some_iff.1 h
    exact (ih hm).prepend [_]

theorem endsSolid_quotedLength (h : quotedLength rest = some n) : EndsSolid (rest.take n) := by
  fun_induction quotedLength rest generalizing n with
  | case1 => cases h
  | case2 rest =>
    obtain rfl := Option.some.inj h
    exact ⟨[], '"', rfl, by decide⟩
  | case3 c rest hc ih =>
    obtain ⟨m, hm, rfl⟩ := Option.map_eq_some_iff.1 h
    exact (ih hm).prepend [_]

theorem solid_take_runLength {class? : Char → Bool} (h : ∀ d, class? d = true → isBlank d = false) :
    ∀ d ∈ rest.take (runLength class? rest), isBlank d = false := by
  intro d hd
  rw [runLength, ← (List.prefix_iff_eq_take.1 (List.takeWhile_prefix class?))] at hd
  exact h d (List.all_eq_true.1 List.all_takeWhile d hd)

theorem solid_take_wordLength (rest : List Char) :
    ∀ d ∈ rest.take (wordLength rest), isBlank d = false := by
  fun_induction wordLength rest with
  | case1 => exact nofun
  | case2 c rest hc ih =>
    rw [List.take_succ_cons, List.forall_mem_cons]
    refine ⟨?_, ih⟩
    rw [Bool.or_eq_true, beq_iff_eq] at hc
    rcases hc with hc | rfl
    · exact isBlank_of_isLetterOrNumeral hc
    · decide
  | case3 c rest hc hhyphen ih =>
    rw [List.take_succ_cons, List.forall_mem_cons]
    refine ⟨?_, ih⟩
    rw [Bool.and_eq_true, beq_iff_eq] at hhyphen
    rw [hhyphen.1]
    decide
  | case4 => exact nofun

theorem solid_take_numberLexeme (rest : List Char) :
    ∀ d ∈ rest.take (numberLexeme rest).2, isBlank d = false := by
  have hdigits : ∀ d ∈ rest.take (runLength isDecimalDigit rest), isBlank d = false :=
    solid_take_runLength fun d => isBlank_of_isDecimalDigit
  simp only [numberLexeme]
  split
  · next more hmore =>
    split
    · -- the digits, the slash and more digits
      rw [Nat.add_assoc, List.take_add, hmore, Nat.add_comm 1, List.take_succ_cons,
        List.forall_mem_append, List.forall_mem_cons]
      exact ⟨hdigits, by decide, solid_take_runLength fun d => isBlank_of_isDecimalDigit⟩
    · exact hdigits
  · exact hdigits

theorem solid_take_possessiveLexeme (rest : List Char) :
    ∀ d ∈ rest.take (possessiveLexeme rest).2, isBlank d = false := by
  rw [possessiveLexeme.eq_def]
  split
  · next c rest =>
    split
    · next h =>
      simp only [Bool.and_eq_true, Bool.or_eq_true, beq_iff_eq] at h
      refine List.forall_mem_cons.2 ⟨?_, nofun⟩
      rcases h.1 with rfl | rfl <;> decide
    · exact nofun
  · exact nofun

/-- Where a token ends: with a character that is no blank, or at the end of the text. -/
theorem endsSolid_lexeme (h : (lexeme c rest).1 ≠ .blank) :
    isBlank c = false ∧
      (EndsSolid (c :: rest.take (lexeme c rest).2) ∨ rest.length ≤ (lexeme c rest).2) := by
  have hc : isBlank c = false := by
    rw [Bool.eq_false_iff]
    intro hblank
    exact h (by rw [lexeme.eq_def, if_pos hblank])
  have hsolid {n : Nat} (hall : ∀ d ∈ rest.take n, isBlank d = false) : EndsSolid (c :: rest.take n) :=
    endsSolid_of_forall (by simp) (List.forall_mem_cons.2 ⟨hc, hall⟩)
  have halone : EndsSolid (c :: rest.take 0) := hsolid nofun
  refine ⟨hc, ?_⟩
  rw [lexeme.eq_def, if_neg (by simp [hc])]
  -- one case for each first character that has a meaning of its own
  split
  case h_1 | h_2 | h_3 | h_4 => exact .inl halone
  case h_5 =>
    split
    · next harrow =>
      cases rest with
      | nil => cases harrow
      | cons d more =>
        obtain rfl := eq_of_beq harrow
        exact .inl (hsolid (List.forall_mem_singleton.2 (by decide)))
    · exact .inl halone
  case h_6 | h_7 => exact .inl (hsolid (solid_take_possessiveLexeme rest))
  case h_8 =>
    split
    · next n hn => exact .inl ((endsSolid_commentLength hn).prepend [_])
    · exact .inr (Nat.le_refl _)
  case h_9 =>
    split
    · next n hn => exact .inl ((endsSolid_quotedLength hn).prepend [_])
    · exact .inr (Nat.le_refl _)
  case h_10 =>
    split
    · exact .inl (hsolid (solid_take_runLength fun d => isBlank_of_isHexDigit))
    · exact .inl halone
  case h_11 =>
    split
    · exact .inl (hsolid (solid_take_numberLexeme rest))
    · split
      · exact .inl (hsolid (solid_take_wordLength rest))
      · exact .inl halone

/-- A token is a part of the text, at its place. -/
theorem exists_part_of_mem_scanFrom {offset : Nat} {cs : List Char} {t : Token}
    (h : t ∈ scanFrom offset cs) :
    ∃ before after, cs = before ++ (t.text.toList ++ after) ∧ t.start = offset + byteLength before ∧
      t.stop = offset + byteLength before + byteLength t.text.toList := by
  obtain ⟨before, after, hcs, hstart, hstop⟩ := cutFrom_scanFrom offset cs t h
  refine ⟨before.toList, after.toList, ?_, ?_, ?_⟩
  · rw [← String.toList_ofList (l := cs), hcs, String.toList_append, String.toList_append,
      List.append_assoc]
  · rw [hstart, byteLength_toList]
  · rw [hstop, hstart, byteLength_toList, byteLength_toList]

/-- A token of a text stands between two cuts. -/
theorem cut_of_mem_scanFrom {offset : Nat} {cs : List Char} {t : Token}
    (h : t ∈ scanFrom offset cs) :
    ∃ i j, Cut cs i ∧ Cut cs j ∧ t.start = offset + i ∧ t.stop = offset + j := by
  obtain ⟨before, after, hcs, hstart, hstop⟩ := exists_part_of_mem_scanFrom h
  refine ⟨byteLength before, byteLength (before ++ t.text.toList), ⟨_, _, hcs, rfl⟩,
    ⟨_, after, by rw [hcs, List.append_assoc], rfl⟩, hstart, ?_⟩
  rw [hstop, byteLength_append, Nat.add_assoc]

/-- Every token but the one that closes them is the lexeme at its place. -/
theorem lexeme_of_mem_scanFrom {offset : Nat} {cs : List Char} {t : Token}
    (h : t ∈ scanFrom offset cs) (hkind : t.kind ≠ .stop) : ∃ c rest,
      t.kind = (lexeme c rest).1 ∧ t.text.toList = c :: rest.take (lexeme c rest).2 := by
  fun_induction scanFrom offset cs with
  | case1 offset =>
    rw [List.mem_singleton.1 h] at hkind
    exact absurd rfl hkind
  | case2 offset c rest found chars stop ih =>
    rcases List.mem_cons.1 h with rfl | h
    · exact ⟨c, rest, rfl, String.toList_ofList⟩
    · exact ih h

/-- No token starts before the one in front of it has stopped. -/
theorem pairwise_scanFrom (offset : Nat) (cs : List Char) :
    (scanFrom offset cs).Pairwise fun t u => t.stop ≤ u.start := by
  fun_induction scanFrom offset cs with
  | case1 => exact List.pairwise_singleton ..
  | case2 offset c rest found chars stop ih =>
    refine List.pairwise_cons.2 ⟨fun u hu => ?_, ih⟩
    obtain ⟨i, -, -, -, hstart, -⟩ := cut_of_mem_scanFrom hu
    exact hstart ▸ Nat.le_add_right _ _

/-- A significant token starts at an edge, and it stops at one or at the end of the text. -/
theorem edges_of_mem_scanFrom {offset : Nat} {cs : List Char} {t : Token}
    (h : t ∈ scanFrom offset cs) (hsignificant : t.isSignificant = true) :
    ∃ i j, t.start = offset + i ∧ t.stop = offset + j ∧ i ≤ j ∧ Edge cs i ∧
      (Edge cs j ∨ j = byteLength cs) := by
  fun_induction scanFrom offset cs with
  | case1 offset =>
    rw [List.mem_singleton.1 h] at hsignificant
    exact absurd hsignificant (by simp [isSignificant])
  | case2 offset c rest found chars stop ih =>
    have hsplit : c :: rest = chars ++ (rest.drop found.2 ++ []) := by
      rw [List.append_nil, List.cons_append, List.take_append_drop]
    rcases List.mem_cons.1 h with rfl | h
    · have hkind : (lexeme c rest).1 ≠ .blank := by
        have hboth := Bool.and_eq_true_iff.1 hsignificant
        exact bne_iff_ne.1 hboth.1
      obtain ⟨hc, hend⟩ := endsSolid_lexeme hkind
      refine ⟨0, byteLength chars, rfl, rfl, Nat.zero_le _, ?_, ?_⟩
      · simpa using StartsSolid.edge ⟨c, rest, rfl, hc⟩ [] []
      rcases hend with ⟨before, d, hchars, hd⟩ | hlength
      · left
        have hsolid : EndsSolid chars := ⟨before, d, hchars, hd⟩
        have hedge := hsolid.edge [] (rest.drop found.2 ++ [])
        rwa [List.nil_append, byteLength_nil, Nat.zero_add, ← hsplit] at hedge
      · right
        rw [hsplit, List.drop_eq_nil_of_le hlength, List.append_nil, List.append_nil]
    · obtain ⟨i, j, hstart, hstop, hle, hi, hj⟩ := ih h
      refine ⟨byteLength chars + i, byteLength chars + j, ?_, ?_, by omega, ?_, ?_⟩
      · rw [hstart, ← Nat.add_assoc]
      · rw [hstop, ← Nat.add_assoc]
      · rw [hsplit]
        exact hi.within chars []
      · rw [hsplit]
        rcases hj with hj | rfl
        · exact .inl (hj.within chars [])
        · exact .inr (by simp)

end Token

/-! Texts at their place. -/

/-- The span is where the text stands, and every edge of the text is a place where spans
    may end. -/
structure Span.Covers (P : Nat → Prop) (text : List Char) (span : Span) : Prop where
  sits : span.Sits P
  stop : span.stop = span.start + byteLength text
  edge : ∀ i, Edge text i → P (span.start + i)

namespace Span.Covers

variable {P : Nat → Prop} {text : List Char} {span : Span}

/-- The significant tokens of a text stand one behind the other, at its edges and its end. -/
theorem laid (h : Covers P text span) :
    Token.Laid P (Token.significant (Token.scanFrom span.start text)) := by
  refine ⟨(Token.pairwise_scanFrom span.start text).sublist List.filter_sublist, fun t ht => ?_⟩
  obtain ⟨hscan, hsignificant⟩ := List.mem_filter.1 ht
  obtain ⟨i, j, hstart, hstop, hle, hi, hj⟩ := Token.edges_of_mem_scanFrom hscan hsignificant
  refine ⟨?_, ?_, ?_⟩ <;> simp only [Span.ofToken, hstart, hstop]
  · omega
  · exact h.edge i hi
  · rcases hj with hj | rfl
    · exact h.edge j hj
    · exact h.stop ▸ h.sits.2.2

/-- What tokens of a text hold stands in the text. -/
theorem within (h : Covers P text span) {s : Span}
    (hs : s.HeldBy (Token.significant (Token.scanFrom span.start text))) : s.Within span := by
  obtain ⟨first, hfirst, last, hlast, hstart, hstop⟩ := hs
  obtain ⟨i, -, -, -, hi, -⟩ := Token.cut_of_mem_scanFrom (List.mem_filter.1 hfirst).1
  obtain ⟨-, j, -, hj, -, hlaststop⟩ := Token.cut_of_mem_scanFrom (List.mem_filter.1 hlast).1
  have hle := hj.le
  have hspan := h.stop
  constructor <;> omega

end Span.Covers

end Prose
