import Prose.Proofs.Token.Edges
import Prose.Proofs.Token.Quotes

/- Spaces between tokens. A text may be laid out anew: its tokens with single spaces between
   them are read as the same tokens. A space ends every token that was complete, because the
   reader finds nothing in it that would make the token longer or another one. Only an open
   quote or comment would go on, but it takes all of its text, so that it is the last token
   and no space is put behind it. This holds of any tokens of a text, in their order. -/
namespace Prose.Token

open Text

variable {c d : Char} {w rest more cs : List Char} {n offset : Nat} {t u : Token}
  {ts us : List Token}

/-! A space behind a token. -/

/-- What has no blanks in it stops before a space. -/
theorem le_of_solid (h : ∀ d ∈ (w ++ ' ' :: more).take n, isBlank d = false) : n ≤ w.length := by
  rw [← Nat.not_lt]
  intro hlt
  obtain ⟨m, hm⟩ := Nat.exists_eq_add_of_lt hlt
  have hspace : ' ' ∈ (w ++ ' ' :: more).take n := by
    rw [hm, Nat.add_assoc, List.take_length_add_append, List.take_succ_cons]
    exact List.mem_append_right _ List.mem_cons_self
  exact absurd (h ' ' hspace) (by decide)

theorem commentLength_le {depth : Nat} (h : commentLength depth cs = some n) : n ≤ cs.length := by
  fun_induction commentLength depth cs generalizing n with
  | case1 => cases h
  | case2 depth rest ih =>
    obtain ⟨m, hm, rfl⟩ := Option.map_eq_some_iff.1 h
    exact Nat.succ_le_succ (ih hm)
  | case3 depth rest hopen hdepth =>
    obtain rfl := Option.some.inj h
    exact Nat.succ_le_succ (Nat.zero_le _)
  | case4 depth rest hopen hdepth ih =>
    obtain ⟨m, hm, rfl⟩ := Option.map_eq_some_iff.1 h
    exact Nat.succ_le_succ (ih hm)
  | case5 depth c rest hopen hclose ih =>
    obtain ⟨m, hm, rfl⟩ := Option.map_eq_some_iff.1 h
    exact Nat.succ_le_succ (ih hm)

theorem quotedLength_le (h : quotedLength cs = some n) : n ≤ cs.length := by
  fun_induction quotedLength cs generalizing n with
  | case1 => cases h
  | case2 rest =>
    obtain rfl := Option.some.inj h
    exact Nat.succ_le_succ (Nat.zero_le _)
  | case3 c rest hc ih =>
    obtain ⟨m, hm, rfl⟩ := Option.map_eq_some_iff.1 h
    exact Nat.succ_le_succ (ih hm)

/-- A comment or a quoted text that is not closed in the text behind its first character. -/
def StaysOpen (c : Char) (w : List Char) : Prop :=
  c = '(' ∧ commentLength 1 w = none ∨ c = '"' ∧ quotedLength w = none

/-- What is closed ends where it did, whatever stands behind it. -/
theorem delimited_extend {length? : List Char → Option Nat} {k : Kind} {after : List Char}
    (hextend : ∀ {n}, length? w = some n → length? (w ++ after) = some n)
    (hle : ∀ {n}, length? w = some n → n ≤ w.length) (hclosed : length? w ≠ none) :
    (delimited length? k (w ++ after)).2 ≤ w.length := by
  obtain ⟨n, hn⟩ := Option.ne_none_iff_exists'.1 hclosed
  rw [delimited, hextend hn]
  exact hle hn

/-- No token that is closed goes on over a space. -/
theorem lexeme_space_le (hc : isBlank c = false) (hclosed : ¬StaysOpen c w) :
    (lexeme c (w ++ ' ' :: more)).2 ≤ w.length := by
  rw [lexeme.eq_def, if_neg (by simp [hc])]
  -- one case for each first character that has a meaning of its own
  split
  case h_1 | h_2 | h_3 | h_4 => exact Nat.zero_le _
  case h_5 =>
    split
    · next harrow =>
      cases w with
      | nil => cases harrow
      | cons d w => exact Nat.succ_le_succ (Nat.zero_le _)
    · exact Nat.zero_le _
  case h_6 | h_7 => exact le_of_solid (solid_take_possessiveLexeme _)
  case h_8 =>
    exact delimited_extend (fun h => commentLength_extend h _) commentLength_le
      fun h => hclosed (.inl ⟨rfl, h⟩)
  case h_9 =>
    exact delimited_extend (fun h => quotedLength_extend h _) quotedLength_le
      fun h => hclosed (.inr ⟨rfl, h⟩)
  case h_10 =>
    split
    · exact le_of_solid (solid_take_runLength fun d => isBlank_of_isHexDigit)
    · exact Nat.zero_le _
  case h_11 =>
    split
    · exact le_of_solid (solid_take_numberLexeme _)
    · split
      · exact le_of_solid (solid_take_wordLength _)
      · exact Nat.zero_le _

/-- A token that is closed is the same with a space behind it. -/
theorem lexeme_space (hc : isBlank c = false) (hclosed : ¬StaysOpen c w) (more : List Char) :
    lexeme c (w ++ ' ' :: more) = lexeme c w := by
  refine lexeme_append (lexeme_space_le hc hclosed) fun _ d rest _ _ hnext => ?_
  rintro rfl
  have hspace : isBlank ' ' = false := isBlank_of_isLetterOrNumeral hnext
  exact absurd hspace (by decide)

/-! Tokens without the text around them. -/

/-- A token is read again of the text that it takes. -/
theorem lexeme_take (c : Char) (rest : List Char) :
    lexeme c (rest.take (lexeme c rest).2) = lexeme c rest := by
  have hcut : lexeme c (rest.take (lexeme c rest).2 ++ []) = lexeme c rest :=
    Meets.lexeme_eq rfl .start
  rwa [List.append_nil] at hcut

/-- What stays open takes the whole text. -/
theorem drop_eq_nil (h : StaysOpen c (rest.take (lexeme c rest).2)) :
    rest.drop (lexeme c rest).2 = [] := by
  have hwhole {length? : List Char → Option Nat} {k : Kind} (hk : k ≠ .error)
      (hlexeme : ∀ cs, lexeme c cs = delimited length? k cs)
      (hopen : length? (rest.take (lexeme c rest).2) = none) : rest.drop (lexeme c rest).2 = [] := by
    have hsame := lexeme_take c rest
    rw [hlexeme, delimited, hopen, hlexeme] at hsame
    rw [hlexeme]
    cases hlength : length? rest with
    | none => rw [delimited, hlength, List.drop_length]
    | some n =>
      rw [delimited, hlength] at hsame
      exact absurd (congrArg Prod.fst hsame).symm hk
  rcases h with ⟨rfl, h⟩ | ⟨rfl, h⟩
  · exact hwhole (by decide) (fun _ => rfl) h
  · exact hwhole (by decide) (fun _ => rfl) h

/-- A significant token that is read again of its own text. -/
structure ReadAlone (t : Token) : Prop where
  significant : t.isSignificant
  text : ∃ c w, t.text.toList = c :: w ∧ (lexeme c w).1 = t.kind ∧ w.length ≤ (lexeme c w).2

theorem ReadAlone.exists_solid (h : t.ReadAlone) : ∃ c w, t.text.toList = c :: w ∧
    isBlank c = false ∧ (lexeme c w).1 = t.kind ∧ w.length ≤ (lexeme c w).2 := by
  obtain ⟨c, w, htext, hkind, hlength⟩ := h.text
  have hblank : (lexeme c w).1 ≠ .blank := by
    rw [hkind]
    exact bne_iff_ne.1 (Bool.and_eq_true_iff.1 h.significant).1
  exact ⟨c, w, htext, (endsSolid_lexeme hblank).1, hkind, hlength⟩

/-- The token is a comment or a quoted text that is not closed. -/
def EndsOpen (t : Token) : Prop := ∃ c w, t.text.toList = c :: w ∧ StaysOpen c w

/-- Tokens that are read again when they stand between spaces: only the last of them may be
    open. -/
structure Respaceable (ts : List Token) : Prop where
  alone : ∀ t ∈ ts, t.ReadAlone
  closed : ts.Pairwise fun t _ => ¬t.EndsOpen

theorem Respaceable.sublist (h : Respaceable ts) (hsub : us.Sublist ts) : Respaceable us :=
  ⟨fun t ht => h.alone t (hsub.subset ht), h.closed.sublist hsub⟩

/-- The tokens of a text. -/
theorem respaceable_scanFrom (offset : Nat) (cs : List Char) :
    Respaceable (significant (scanFrom offset cs)) := by
  fun_induction scanFrom offset cs with
  | case1 offset => exact ⟨List.forall_mem_nil _, .nil⟩
  | case2 offset c rest found chars stop ih =>
    rw [significant, List.filter_cons]
    split
    · next hsignificant =>
      refine ⟨List.forall_mem_cons.2 ⟨⟨hsignificant, c, _, String.toList_ofList, ?_, ?_⟩, ih.alone⟩,
        List.pairwise_cons.2 ⟨fun u hu hopen => ?_, ih.closed⟩⟩
      · rw [lexeme_take]
      · rw [lexeme_take]
        exact List.length_take_le _ _
      · -- behind a token that stays open there is only the closing one
        obtain ⟨d, w, htext, hopen⟩ := hopen
        obtain ⟨rfl, rfl⟩ := List.cons.inj (String.toList_ofList.symm.trans htext)
        rw [drop_eq_nil hopen, scanFrom] at hu
        exact absurd hu (by simp [isSignificant])
    · exact ih

/-! Texts that are laid out anew. -/

/-- What a token is and says, wherever it stands. -/
def face (t : Token) : Kind × String := (t.kind, t.text)

/-- The first of the tokens, when only a space stands behind it. -/
theorem map_face_space (hc : isBlank c = false) (hclosed : ¬StaysOpen c w)
    (hlength : w.length ≤ (lexeme c w).2) (hkind : (lexeme c w).1 ≠ .blank) (hd : isBlank d = false)
    (offset : Nat) (more : List Char) :
    (significant (scanFrom offset (c :: (w ++ ' ' :: d :: more)))).map face =
      ((lexeme c w).1, String.ofList (c :: w)) ::
        (significant (scanFrom (offset + byteLength (c :: w) + 1) (d :: more))).map face := by
  have hlexeme := lexeme_space hc hclosed (d :: more)
  have hn : (lexeme c w).2 = w.length :=
    Nat.le_antisymm (hlexeme ▸ lexeme_space_le hc hclosed) hlength
  have hspace : lexeme ' ' (d :: more) = (.blank, 0) := by
    rw [lexeme.eq_def, if_pos (by decide), runLength, List.takeWhile_cons_of_neg (by simp [hd])]
    rfl
  rw [scanFrom, hlexeme, hn, List.take_left, List.drop_left, scanFrom, hspace]
  rw [significant, List.filter_cons_of_pos, List.filter_cons_of_neg (by simp [isSignificant])]
  · rfl
  · simp [isSignificant, hkind, lexeme_ne_stop]

theorem toList_joinTexts_cons (t : Token) (hne : ts ≠ []) :
    (joinTexts (t :: ts)).toList = t.text.toList ++ ' ' :: (joinTexts ts).toList := by
  rw [joinTexts, List.map_cons, String.intercalate_cons_of_ne_nil (by simpa using hne),
    String.toList_append, String.toList_append, List.append_assoc]
  rfl

theorem exists_toList_joinTexts (t : Token) (ts : List Token) :
    ∃ more, (joinTexts (t :: ts)).toList = t.text.toList ++ more := by
  cases ts with
  | nil =>
    refine ⟨[], ?_⟩
    rw [joinTexts, List.map_singleton, String.intercalate_singleton, List.append_nil]
  | cons u ts => exact ⟨_, toList_joinTexts_cons t (List.cons_ne_nil u ts)⟩

/-- Tokens with single spaces between them are read as the same tokens. -/
theorem Respaceable.map_face (h : Respaceable ts) (offset : Nat) :
    (significant (scanFrom offset (joinTexts ts).toList)).map face = ts.map face := by
  induction ts generalizing offset with
  | nil =>
    have hempty : (joinTexts []).toList = [] := rfl
    rw [hempty, scanFrom]
    rfl
  | cons t ts ih =>
    obtain ⟨c, w, htext, hc, hkind, hlength⟩ := (h.alone t List.mem_cons_self).exists_solid
    have hsignificant : t.kind ≠ .blank ∧ t.kind ≠ .stop := by
      simpa [isSignificant] using (h.alone t List.mem_cons_self).significant
    have hface : t.face = ((lexeme c w).1, String.ofList (c :: w)) := by
      rw [hkind, ← htext, String.ofList_toList]
      rfl
    cases ts with
    | nil =>
      have hone : (joinTexts [t]).toList = c :: w := by
        rw [joinTexts, List.map_singleton, String.intercalate_singleton, htext]
      rw [hone, scanFrom, List.take_of_length_le hlength, List.drop_eq_nil_of_le hlength, scanFrom,
        significant, List.filter_cons_of_pos, List.filter_cons_of_neg (by simp [isSignificant])]
      · rw [List.map_singleton, hface]
        rfl
      · simp [isSignificant, hkind, hsignificant]
    | cons u ts =>
      have hlater : Respaceable (u :: ts) := h.sublist (List.sublist_cons_self t _)
      have hclosed : ¬StaysOpen c w := fun hopen =>
        (List.pairwise_cons.1 h.closed).1 u List.mem_cons_self ⟨c, w, htext, hopen⟩
      obtain ⟨d, v, hu, hd, -, -⟩ := (hlater.alone u List.mem_cons_self).exists_solid
      obtain ⟨more, hmore⟩ := exists_toList_joinTexts u ts
      rw [hu, List.cons_append] at hmore
      rw [toList_joinTexts_cons t (List.cons_ne_nil u ts), htext, List.cons_append, hmore,
        map_face_space hc hclosed hlength (hkind ▸ hsignificant.1) hd, ← hmore, ih hlater, ← hface]
      rfl

end Prose.Token
