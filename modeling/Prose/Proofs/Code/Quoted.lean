import Mathlib
import Prose.Code.Convert
import Prose.Proofs.Grammar.LiteralText
import Prose.Proofs.Token.Spelling

/- Quoted texts in code. A text is printed between double quotes as it stands. The target
   languages read most of it back as it stands, but what a backslash opens there stands for
   something shorter than itself, and no line may break. So a text comes back from its code
   exactly if it has neither a backslash nor a break in it, whatever the sequences behind
   backslashes stand for. -/
namespace Prose

open Grammar

/-- How a target language reads what stands between double quotes: which characters break a
    line, and what a sequence behind a backslash stands for, with its length, if it is one. -/
structure Quoting where
  breaks : Char → Bool
  escape : List Char → Option (List Char × Nat)
  /-- No sequence stands for more characters than it has behind its backslash. -/
  length_le : ∀ {cs value n}, escape cs = some (value, n) → value.length ≤ n

namespace Quoting

variable (q : Quoting)

/-- What stands for itself between double quotes. -/
def IsPlain (c : Char) : Prop := c ≠ '\\' ∧ q.breaks c = false

/-- The text from behind a double quote up to the one that closes it, and what is left. -/
def content : List Char → Option (List Char × List Char)
  | [] => none
  | c :: rest =>
    if c = '"' then some ([], rest)
    else if c = '\\' then do
      let (value, n) ← q.escape rest
      let (later, left) ← content (rest.drop n)
      return (value ++ later, left)
    else if q.breaks c then none
    else do
      let (later, left) ← content rest
      return (c :: later, left)
termination_by cs => cs.length
decreasing_by
  all_goals simp only [List.length_drop, List.length_cons]
  all_goals omega

/-- The text that a code stands for, if all of it is one text in double quotes. -/
def read (code : String) : Option String :=
  match code.toList with
  | '"' :: rest =>
    match q.content rest with
    | some (value, []) => some (String.ofList value)
    | _ => none
  | _ => none

variable {q : Quoting} {cs left value : List Char}

theorem content_plain (hplain : ∀ c ∈ cs, q.IsPlain c) (hquote : '"' ∉ cs) (left : List Char) :
    q.content (cs ++ '"' :: left) = some (cs, left) := by
  induction cs with
  | nil => rw [List.nil_append, content, if_pos rfl]
  | cons c cs ih =>
    obtain ⟨⟨hbackslash, hbreak⟩, hrest⟩ := List.forall_mem_cons.1 hplain
    have hc : c ≠ '"' := fun h => hquote (h ▸ List.mem_cons_self)
    rw [List.cons_append, content, if_neg hc, if_neg hbackslash, if_neg (by simp [hbreak]),
      ih hrest (List.not_mem_of_not_mem_cons hquote)]
    rfl

/-- What is read is shorter than what it is read from, by the quote that closes it and by
    every backslash. -/
theorem length_content (h : q.content cs = some (value, left)) :
    value.length + left.length < cs.length := by
  fun_induction q.content cs generalizing value left with
  | case1 => cases h
  | case2 rest =>
    obtain ⟨rfl, rfl⟩ := Prod.mk.inj (Option.some.inj h)
    simp
  | case3 rest hquote ih =>
    obtain ⟨⟨w, n⟩, hw, h⟩ := Option.bind_eq_some_iff.1 h
    obtain ⟨⟨later, l⟩, hlater, h⟩ := Option.bind_eq_some_iff.1 h
    obtain ⟨rfl, rfl⟩ := Prod.mk.inj (Option.some.inj h)
    have hlength := q.length_le hw
    have hdrop := ih n hlater
    rw [List.length_drop] at hdrop
    rw [List.length_append, List.length_cons]
    omega
  | case4 => cases h
  | case5 c rest hquote hbackslash hbreak ih =>
    obtain ⟨⟨later, l⟩, hlater, h⟩ := Option.bind_eq_some_iff.1 h
    obtain ⟨rfl, rfl⟩ := Prod.mk.inj (Option.some.inj h)
    have hlength := ih hlater
    rw [List.length_cons, List.length_cons]
    omega

/-- A text that is read back as it stands has nothing in it but what stands for itself. -/
theorem isPlain_of_content (hquote : '"' ∉ cs) (h : q.content (cs ++ ['"']) = some (cs, [])) :
    ∀ c ∈ cs, q.IsPlain c := by
  induction cs with
  | nil => exact nofun
  | cons c cs ih =>
    have hc : c ≠ '"' := fun h => hquote (h ▸ List.mem_cons_self)
    rw [List.cons_append, content, if_neg hc] at h
    split at h
    · -- behind a backslash too few characters are left for the value
      obtain ⟨⟨w, n⟩, hw, h⟩ := Option.bind_eq_some_iff.1 h
      obtain ⟨⟨later, l⟩, hlater, h⟩ := Option.bind_eq_some_iff.1 h
      obtain ⟨hvalue, rfl⟩ := Prod.mk.inj (Option.some.inj h)
      have hlength := q.length_le hw
      have hdrop := length_content hlater
      have hsum := congrArg List.length hvalue
      simp only [List.length_append, List.length_cons, List.length_drop, List.length_nil] at hdrop hsum
      omega
    · next hbackslash =>
      split at h
      · cases h
      · next hbreak =>
        obtain ⟨⟨later, l⟩, hlater, h⟩ := Option.bind_eq_some_iff.1 h
        obtain ⟨hvalue, rfl⟩ := Prod.mk.inj (Option.some.inj h)
        obtain rfl := (List.cons.inj hvalue).2
        refine List.forall_mem_cons.2 ⟨⟨hbackslash, by simpa using hbreak⟩, ?_⟩
        exact ih (List.not_mem_of_not_mem_cons hquote) hlater

/-- A text comes back from its code exactly if all of it stands for itself. -/
theorem read_quoted_iff {v : String} (hquote : '"' ∉ v.toList) :
    q.read ("\"" ++ v ++ "\"") = some v ↔ ∀ c ∈ v.toList, q.IsPlain c := by
  have htext : ("\"" ++ v ++ "\"").toList = '"' :: (v.toList ++ ['"']) := by
    rw [String.toList_append, String.toList_append, List.append_assoc]
    rfl
  rw [read, htext]
  constructor
  · intro h
    simp only at h
    split at h
    · next value hcontent =>
      refine isPlain_of_content hquote ?_
      rw [hcontent, ← Option.some.inj h, String.toList_ofList]
    · cases h
  · intro h
    simp only [content_plain h hquote, String.ofList_toList]

/-- What both target languages have in common: a backslash before a quote or another backslash,
    and some letters behind one for characters that are hard to see. -/
def common : Quoting where
  breaks c := c = '\n' ∨ c = '\r'
  escape
    | '\\' :: _ => some (['\\'], 1)
    | '"' :: _ => some (['"'], 1)
    | 'n' :: _ => some (['\n'], 1)
    | 'r' :: _ => some (['\r'], 1)
    | 't' :: _ => some (['\t'], 1)
    | _ => none
  length_le h := by
    split at h <;> cases h <;> exact Nat.le_refl 1

end Quoting

/-- The text of a token of quoted text is its value with double quotes around it. -/
theorem Token.Spelled.exists_quoted {t : Token} (h : t.Spelled) (hkind : t.kind = .stringLiteral) :
    ∃ v : String, t.text = "\"" ++ v ++ "\"" ∧ '"' ∉ v.toList := by
  rw [Spelled, hkind] at h
  obtain ⟨inner, hinner, htext⟩ := h
  refine ⟨String.ofList inner, String.toList_injective ?_, by rwa [String.toList_ofList]⟩
  rw [htext, String.toList_append, String.toList_append, String.toList_ofList (l := inner),
    List.append_assoc]
  rfl

namespace Grammar

/-- A token of quoted text is read as what stands between its double quotes. -/
theorem Phrase.literal_quoted {p : Phrase} {s : Progress} {v : String} {t : Token}
    (ht : p.tokenAt s.pos = t) (hkind : t.kind = .stringLiteral)
    (htext : t.text = "\"" ++ v ++ "\"") (hquote : '"' ∉ v.toList) :
    p.literal s = (some (.text v (.ofToken t)), (p.advance s).2) := by
  have hvalue : unquote t.text = v := by rw [htext, unquote_quoted hquote]
  show p.literal s = _
  simp only [Phrase.literal, bind, Rule.position, ht, hkind, hvalue]
  rfl

end Grammar

/-- Quoted texts in code. A token of quoted text, at any place of any text, is read as the text
    between its double quotes and printed in every target language between double quotes again.
    The target language reads that as the same text exactly if there is no backslash and no
    line break in it. -/
theorem quoted_survives_iff {offset : Nat} {text : String} {t : Token}
    (ht : t ∈ Token.scan offset text) (hkind : t.kind = .stringLiteral) :
    ∃ v : String, t.text = "\"" ++ v ++ "\"" ∧ '"' ∉ v.toList ∧
      (∀ (p : Phrase) (s : Progress), p.tokenAt s.pos = t →
        p.literal s = (some (.text v (.ofToken t)), (p.advance s).2)) ∧
      ∀ (target : Target) (span : Span), ∃ code,
        Node.convert target (.expr (.text v span)) = .ok code ∧
        ∀ q : Quoting, q.read code = some v ↔ ∀ c ∈ v.toList, c ≠ '\\' ∧ q.breaks c = false := by
  obtain ⟨v, htext, hquote⟩ := (Token.spelled_of_mem_scanFrom ht).exists_quoted hkind
  refine ⟨v, htext, hquote, fun p s hp => Phrase.literal_quoted hp hkind htext hquote, ?_⟩
  exact fun target span => ⟨_, rfl, fun q => Quoting.read_quoted_iff hquote⟩

/-- The text in `put "a, b" into a x`. -/
theorem quoted_survives_iff_comma :
    let text := "put \"a, b\" into a x"
    let t : Token := ⟨.stringLiteral, "\"a, b\"", 4, 10⟩
    t ∈ Token.scan 0 text ∧ t.kind = .stringLiteral ∧
      ∃ v : String, t.text = "\"" ++ v ++ "\"" ∧ '"' ∉ v.toList ∧
        (∀ (p : Phrase) (s : Progress), p.tokenAt s.pos = t →
          p.literal s = (some (.text v (.ofToken t)), (p.advance s).2)) ∧
        ∀ (target : Target) (span : Span), ∃ code,
          Node.convert target (.expr (.text v span)) = .ok code ∧
          ∀ q : Quoting, q.read code = some v ↔ ∀ c ∈ v.toList, c ≠ '\\' ∧ q.breaks c = false := by
  intro text t
  have hthird : (Token.scan 0 text)[2]? = some t := by cbv
  have ht := List.mem_of_getElem? hthird
  exact ⟨ht, rfl, quoted_survives_iff ht rfl⟩

/-- The text in `put "a\tb" into a x` is printed in both target languages so that neither reads
    it back, whatever `\t` stands for. Where it stands for a tab, one is read. -/
theorem quoted_backslash_lost :
    let text := "put \"a\\tb\" into a x"
    let p : Phrase := ⟨Token.significant (Token.scan 0 text), text.utf8ByteSize, true, 0,
      fun ts => (Stmt.ofUnread ts, false)⟩
    (p.literal { pos := 1 }).1 = some (.text "a\\tb" ⟨4, 10⟩) ∧
      ∀ target, ∃ code, Node.convert target (.expr (.text "a\\tb" ⟨4, 10⟩)) = .ok code ∧
        Quoting.common.read code = some "a\tb" ∧ ∀ q : Quoting, q.read code ≠ some "a\\tb" := by
  intro text p
  refine ⟨by cbv, fun target => ⟨_, rfl, by cbv, fun q hread => ?_⟩⟩
  have hplain := (Quoting.read_quoted_iff (by decide)).1 hread '\\' (by decide)
  exact hplain.1 rfl

end Prose
