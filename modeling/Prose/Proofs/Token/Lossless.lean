import Prose.Token.Scan

/- Reading a text into tokens loses nothing. The tokens stand end to end over the
   whole text, each holds exactly the bytes of the text between its offsets, cut out
   between two characters, and one empty token closes them. Only the closing token is
   empty and only it has the kind of an end, so it cannot be mistaken for another. -/
namespace Prose.Text

theorem utf8ByteSize_ofList (cs : List Char) : (String.ofList cs).utf8ByteSize = byteLength cs := by
  induction cs with
  | nil => rfl
  | cons c cs ih =>
    rw [String.ofList_cons, String.utf8ByteSize_append, String.utf8ByteSize_singleton, ih,
      byteLength_cons]

theorem byteLength_toList (s : String) : byteLength s.toList = s.utf8ByteSize := by
  rw [← utf8ByteSize_ofList, String.ofList_toList]

end Prose.Text

namespace Prose.Token

open Prose.Text

/-- Tokens that stand end to end, the first of them at an offset. -/
def EndToEnd : Nat → List Token → Prop
  | _, [] => True
  | offset, t :: ts => t.start = offset ∧ EndToEnd t.stop ts

/-- The token is cut out of a text that starts at an offset: it starts behind as many bytes
    as stand before it in the text, and it is as long as its own text. -/
def CutFrom (offset : Nat) (s : String) (t : Token) : Prop :=
  ∃ before after : String, s = before ++ t.text ++ after ∧
    t.start = offset + before.utf8ByteSize ∧ t.stop = t.start + t.text.utf8ByteSize

/-- The bytes between the offsets of a token that is cut out are the bytes of its text. -/
theorem CutFrom.extract_eq {offset : Nat} {s : String} {t : Token} (h : t.CutFrom offset s) :
    s.toByteArray.extract (t.start - offset) (t.stop - offset) = t.text.toByteArray := by
  obtain ⟨before, after, rfl, hstart, hstop⟩ := h
  have hi : t.start - offset = before.toByteArray.size + 0 := by
    rw [hstart, String.size_toByteArray]; omega
  have hj : t.stop - offset = before.toByteArray.size + t.text.toByteArray.size := by
    rw [hstop, hstart, String.size_toByteArray, String.size_toByteArray]; omega
  rw [hi, hj, String.append_assoc, String.toByteArray_append, ByteArray.extract_append_size_add,
    String.toByteArray_append, ByteArray.extract_append_eq_left rfl]

/-! No token of a text but the closing one has the kind of an end. -/

theorem ofKeyword?_mem {word : String} {k : Kind} (h : Kind.ofKeyword? word = some k) :
    k ∈ keywordKinds.map Prod.snd := by
  obtain ⟨l₁, l₂, hl, -⟩ := List.lookup_eq_some_iff.1 h
  rw [hl, List.map_append]
  exact List.mem_append_right _ List.mem_cons_self

theorem ofKeyword?_ne_stop {word : String} {k : Kind} (h : Kind.ofKeyword? word = some k) :
    k ≠ .stop := by
  have hall : ∀ k ∈ keywordKinds.map Prod.snd, k ≠ .stop := by decide
  exact hall k (ofKeyword?_mem h)

theorem numberLexeme_ne_stop (rest : List Char) : (numberLexeme rest).1 ≠ .stop := by
  unfold numberLexeme
  dsimp only
  split
  · split <;> nofun
  · nofun

theorem possessiveLexeme_ne_stop (rest : List Char) : (possessiveLexeme rest).1 ≠ .stop := by
  unfold possessiveLexeme
  split
  · split <;> nofun
  · nofun

theorem lexeme_ne_stop (c : Char) (rest : List Char) : (lexeme c rest).1 ≠ .stop := by
  have hword (n : Nat) :
      (Kind.ofKeyword? (String.ofList (c :: rest.take n))).getD .identifier ≠ .stop := by
    cases h : Kind.ofKeyword? (String.ofList (c :: rest.take n)) with
    | none => nofun
    | some k => exact ofKeyword?_ne_stop h
  unfold lexeme
  split
  · nofun
  · -- one case for each first character that has a meaning of its own
    split
    case h_5 => split <;> nofun
    case h_6 => exact possessiveLexeme_ne_stop rest
    case h_7 => exact possessiveLexeme_ne_stop rest
    case h_8 => split <;> nofun
    case h_9 => split <;> nofun
    case h_10 => split <;> nofun
    case h_11 =>
      split
      · exact numberLexeme_ne_stop rest
      · split
        · exact hword _
        · nofun
    all_goals nofun

/-! The tokens of a text, one after the other. -/

theorem endToEnd_scanFrom (offset : Nat) (cs : List Char) :
    EndToEnd offset (scanFrom offset cs) := by
  fun_induction scanFrom offset cs with
  | case1 offset => exact ⟨rfl, trivial⟩
  | case2 offset c rest found chars stop ih => exact ⟨rfl, ih⟩

/-- The texts of the tokens, put together, are the text that was read. -/
theorem flatMap_text_scanFrom (offset : Nat) (cs : List Char) :
    (scanFrom offset cs).flatMap (fun t => t.text.toList) = cs := by
  fun_induction scanFrom offset cs with
  | case1 offset => rfl
  | case2 offset c rest found chars stop ih =>
    rw [List.flatMap_cons, ih, String.toList_ofList, List.cons_append, List.take_append_drop]

theorem cutFrom_scanFrom (offset : Nat) (cs : List Char) :
    ∀ t ∈ scanFrom offset cs, t.CutFrom offset (String.ofList cs) := by
  fun_induction scanFrom offset cs with
  | case1 offset =>
    intro t ht
    rw [List.mem_singleton.1 ht]
    exact ⟨"", "", rfl, rfl, rfl⟩
  | case2 offset c rest found chars stop ih =>
    have hsplit : String.ofList (c :: rest) =
        String.ofList chars ++ String.ofList (rest.drop found.2) := by
      rw [← String.ofList_append, List.cons_append, List.take_append_drop]
    intro t ht
    rcases List.mem_cons.1 ht with rfl | ht
    · refine ⟨"", String.ofList (rest.drop found.2), ?_, rfl, ?_⟩
      · rw [String.empty_append, hsplit]
      · rw [utf8ByteSize_ofList]
    · -- the tokens further on are cut out behind this one
      obtain ⟨before, after, hcut, hstart, hstop⟩ := ih t ht
      refine ⟨String.ofList chars ++ before, after, ?_, ?_, hstop⟩
      · rw [hsplit, hcut, String.append_assoc, String.append_assoc, String.append_assoc]
      · rw [hstart, String.utf8ByteSize_append, utf8ByteSize_ofList]
        omega

/-- The tokens of a text are tokens that are not empty and one that closes them. -/
theorem scanFrom_eq_append (offset : Nat) (cs : List Char) :
    ∃ body, scanFrom offset cs =
        body ++ [⟨.stop, "", offset + byteLength cs, offset + byteLength cs⟩] ∧
      ∀ t ∈ body, t.text ≠ "" ∧ t.kind ≠ .stop := by
  fun_induction scanFrom offset cs with
  | case1 offset => exact ⟨[], rfl, fun t ht => absurd ht List.not_mem_nil⟩
  | case2 offset c rest found chars stop ih =>
    obtain ⟨body, hbody, hall⟩ := ih
    have hlength : stop + byteLength (rest.drop found.2) = offset + byteLength (c :: rest) := by
      have hsplit : c :: rest = chars ++ rest.drop found.2 := by
        rw [List.cons_append, List.take_append_drop]
      calc stop + byteLength (rest.drop found.2)
          = offset + (byteLength chars + byteLength (rest.drop found.2)) := Nat.add_assoc ..
        _ = offset + byteLength (chars ++ rest.drop found.2) := by rw [byteLength_append]
        _ = offset + byteLength (c :: rest) := by rw [← hsplit]
    refine ⟨⟨found.1, String.ofList chars, offset, stop⟩ :: body, ?_, fun t ht => ?_⟩
    · rw [hbody, hlength, List.cons_append]
    · rcases List.mem_cons.1 ht with rfl | ht
      · refine ⟨fun h => ?_, lexeme_ne_stop c rest⟩
        have htext : String.ofList chars = "" := h
        have hnil : chars = [] := by rw [← String.toList_ofList (l := chars), htext]; rfl
        exact List.cons_ne_nil _ _ hnil
      · exact hall t ht

/-- Reading is lossless. The tokens of a text are tokens that are not empty, followed by a
    single empty one that closes them at the end of the text. The first token starts at the
    offset of the text and each further one where the one before it ends. Every token is cut
    out of the text between two characters and holds its bytes at these offsets, and the
    texts of all tokens put together are the text. -/
theorem scan_lossless (offset : Nat) (s : String) :
    (∃ body, scan offset s =
        body ++ [⟨.stop, "", offset + s.utf8ByteSize, offset + s.utf8ByteSize⟩] ∧
      ∀ t ∈ body, t.text ≠ "" ∧ t.kind ≠ .stop) ∧
    EndToEnd offset (scan offset s) ∧
    (∀ t ∈ scan offset s, t.CutFrom offset s ∧
      s.toByteArray.extract (t.start - offset) (t.stop - offset) = t.text.toByteArray) ∧
    String.join ((scan offset s).map Token.text) = s := by
  refine ⟨?_, endToEnd_scanFrom offset _, fun t ht => ?_, ?_⟩
  · rw [← byteLength_toList]
    exact scanFrom_eq_append offset s.toList
  · have hcut := cutFrom_scanFrom offset s.toList t ht
    rw [String.ofList_toList] at hcut
    exact ⟨hcut, hcut.extract_eq⟩
  · rw [← String.toList_inj, String.toList_join, List.flatMap_map]
    exact flatMap_text_scanFrom offset s.toList

end Prose.Token
