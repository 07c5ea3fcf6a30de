import Prose.Proofs.Grammar.Phrasing

/- Everything that can be said is said with some tokens: names with a single word, numbers
   with their digits, and all the rest with the words that its phrase asks for. -/
namespace Prose

open Grammar

/-- A token of a kind, at no place in particular. -/
def Token.word (k : Kind) (text : String) : Token := ⟨k, text, 0, 0⟩

theorem Token.word_kind (k : Kind) (text : String) : (word k text).kind = k := rfl

namespace Grammar

/-! Names, references and expressions. -/

theorem exists_words (name : String) : ∃ ts, Words name ts := by
  refine ⟨[.word .identifier name], List.cons_ne_nil _ _, fun t ht => ?_, ?_⟩
  · rw [List.mem_singleton.1 ht]
    rfl
  · simp [Token.joinTexts, Token.word]

/-- The names of all owners, from the outermost down, are said one by one. -/
theorem exists_possessions (r : Reference) : ∃ ts, Possessions r.path ts := by
  obtain ⟨name, span, owners⟩ := r
  simp only [Reference.path]
  -- on the owners, the innermost first; it takes the place of the name it owns
  induction owners generalizing name with
  | nil =>
    obtain ⟨ts, hname⟩ := exists_words name
    have harticle : (Token.word .indefiniteArticle "").kind ∈ articles := by decide
    exact ⟨_, .name harticle hname⟩
  | cons owner owners ih =>
    obtain ⟨ts, h⟩ := ih owner.name
    obtain ⟨us, hname⟩ := exists_words name
    rw [List.map_cons, List.reverse_cons]
    exact ⟨_, .slot h (Token.word_kind .possessive "") (.inl rfl) hname⟩

theorem exists_literal {e : Expr} (h : e.IsLiteral) : ∃ ts, LiteralShown e ts := by
  have hnumber (n : Int) : (Token.word .intLiteral (toString n)).kind = .intLiteral := rfl
  cases e with
  | int n => exact ⟨_, .int (hnumber n) rfl⟩
  | inches e =>
    cases e with
    | int n => exact ⟨_, .inches (hnumber n) rfl (Token.word_kind .inchWord "")⟩
    | _ => exact h.elim
  | text s => exact ⟨_, .text (Token.word_kind .stringLiteral ("\"" ++ s ++ "\"")) rfl⟩
  | bytes bs =>
    exact ⟨_, .bytes (Token.word_kind .byteArrayLiteral
      ("$" ++ String.ofList (bs.flatMap Text.showByte))) rfl⟩
  | ratio n d =>
    exact ⟨_, .ratio (Token.word_kind .ratioLiteral (toString n ++ "/" ++ toString d)) rfl⟩
  | null => exact ⟨_, .null (Token.word_kind .nullWord "")⟩
  | _ => exact h.elim

theorem exists_operand {e : Expr} (h : e.IsOperand) :
    ∃ ts, Operand LiteralShown Possessions e ts := by
  cases e with
  | reference r =>
    obtain ⟨ts, hr⟩ := exists_possessions r
    exact ⟨ts, .reference hr⟩
  | possessive slot owner =>
    obtain ⟨ts, hliteral⟩ := exists_literal h.2
    obtain ⟨us, hname⟩ := exists_words slot.name
    obtain ⟨name, span, owners⟩ := slot
    obtain rfl : owners = [] := h.1
    exact ⟨_, .slot hliteral (Token.word_kind .possessive "") hname⟩
  | _ =>
    refine Exists.imp (fun _ => Operand.literal) (exists_literal ?_)
    exact h

/-- Every phrase is said with its words. -/
theorem exists_phrase (kinds : List Kind) : ∃ ts : List Token, ts.map Token.kind = kinds := by
  refine ⟨kinds.map fun k => .word k "", ?_⟩
  rw [List.map_map]
  exact List.map_id kinds

theorem exists_shown {e : Expr} (h : e.IsCombined) : ∃ ts, Shown e ts := by
  fun_induction Expr.IsCombined e with
  | case1 op first second span ihfirst ihsecond =>
    obtain ⟨ts, hfirst⟩ := ihfirst h.1
    obtain ⟨us, hsecond⟩ := ihsecond h.2
    obtain ⟨os, hop⟩ := exists_phrase op.words
    exact ⟨_, .math hfirst hop hsecond⟩
  | case2 op first second span ihfirst ihsecond =>
    obtain ⟨hvalid, hfirst, hsecond⟩ := h
    obtain ⟨ts, hfirst⟩ := ihfirst hfirst
    obtain ⟨us, hsecond⟩ := ihsecond hsecond
    have hphrases : op ≠ .invalid → ∃ e ∈ comparisons, e.2 = op := by cases op <;> decide
    obtain ⟨⟨kinds, _⟩, hmem, rfl⟩ := hphrases hvalid
    obtain ⟨os, rfl⟩ := exists_phrase kinds
    exact ⟨_, .comparison hfirst hmem hsecond⟩
  | case3 e =>
    obtain ⟨ts, hoperand⟩ := exists_operand h
    exact ⟨ts, .operand hoperand⟩

/-! Statements. -/

theorem exists_typed (name : String) (collection : Bool) : ∃ ts, Typed name collection ts := by
  obtain ⟨ts, hname⟩ := exists_words name
  cases collection with
  | false => exact ⟨_, .one (Token.word_kind .indefiniteArticle "") hname⟩
  | true => exact ⟨_, .collection (Token.word_kind .someWord "") hname⟩

theorem exists_initialized {value : Option Expr} (h : ∀ e ∈ value, e.Sayable) :
    ∃ ts, Initialized value ts := by
  cases value with
  | none => exact ⟨[], .none⟩
  | some e =>
    obtain ⟨ts, he⟩ := exists_shown (h e rfl).1
    exact ⟨_, .some (Token.word_kind .equalWord "") (.inl rfl) he⟩

theorem exists_aliased (other : Option String) : ∃ ts, Aliased other ts := by
  cases other with
  | none => exact ⟨[], .none⟩
  | some name =>
    obtain ⟨ts, hname⟩ := exists_words name
    exact ⟨_, .is (Token.word_kind .isWord "") (.inl rfl) hname⟩

theorem exists_slots {ss : List Slot} (h : ss ≠ []) : ∃ ts, Slots ss ts := by
  induction ss with
  | nil => exact absurd rfl h
  | cons s ss ih =>
    obtain ⟨ts, htype⟩ := exists_typed s.name s.collection
    obtain ⟨us, hother⟩ := exists_aliased s.aliasFor
    cases ss with
    | nil => exact ⟨_, .last htype hother⟩
    | cons s' ss =>
      obtain ⟨vs, hlater⟩ := ih (List.cons_ne_nil _ _)
      have hseparator : [Token.word .comma ""].map Token.kind ∈
          [[.comma], [.andWord], [.comma, .andWord]] := by decide
      exact ⟨_, .more htype hother hseparator hlater⟩

theorem exists_shape {d : Shape} {span : Span} (h : (Stmt.shapeDeclaration d span).IsPlain) :
    ∃ ts, Plainly (.shapeDeclaration d span) ts := by
  obtain ⟨name, base, slots, inner⟩ := d
  obtain ⟨words, hname⟩ := exists_words name
  have harticle := Token.word_kind .indefiniteArticle ""
  have hverb := Token.word_kind .isWord ""
  cases base with
  | none =>
    cases slots with
    | none => exact absurd h.1 (by simp)
    | some slots =>
      obtain ⟨ts, hslots⟩ := exists_slots fun h' => h.2 (congrArg some h')
      exact ⟨_, .shapeOf harticle hname (Token.word_kind .hasWord "") hslots⟩
  | some base =>
    obtain ⟨type, htype⟩ := exists_typed base.name base.collection
    cases slots with
    | none => exact ⟨_, .shape harticle hname hverb htype⟩
    | some slots =>
      obtain ⟨ts, hslots⟩ := exists_slots fun h' => h.2 (congrArg some h')
      exact ⟨_, .shapeWith harticle hname hverb htype (Token.word_kind .withWord "") hslots⟩

theorem exists_update {op : MathOp} {operand : Expr} {target : Reference} {inner span : Span}
    (h : operand.Sayable) : ∃ ts, Plainly (.expression (.update true op operand target inner) span) ts := by
  obtain ⟨ts, hoperand⟩ := exists_shown h.1
  obtain ⟨us, htarget⟩ := exists_possessions target
  have hsum (verb preposition : Token) (hverb : (op, verb.kind, preposition.kind) ∈ sumVerbs) :
      ∃ ts, Plainly (.expression (.update true op operand target inner) span) ts :=
    ⟨_, .sum hverb hoperand htarget⟩
  have hfactor (verb : Token) (hverb : (op, verb.kind) ∈ factorVerbs) :
      ∃ ts, Plainly (.expression (.update true op operand target inner) span) ts :=
    ⟨_, .factor hverb htarget (Token.word_kind .byWord "") hoperand⟩
  cases op with
  | plus => exact hsum (.word .addWord "") (.word .toWord "") (by decide)
  | minus => exact hsum (.word .subtractWord "") (.word .fromWord "") (by decide)
  | multiply => exact hfactor (.word .multiplyWord "") (by decide)
  | divide => exact hfactor (.word .divideWord "") (by decide)

theorem exists_plainly {s : Stmt} (h : s.IsPlain) : ∃ ts, Plainly s ts := by
  have hthe := Token.word_kind .definiteArticle ""
  have hone := Token.word_kind .indefiniteArticle ""
  have his := Token.word_kind .isWord ""
  cases s with
  | variableDeclaration d =>
    obtain ⟨name, hname⟩ := exists_words d.name
    obtain ⟨type, htype⟩ := exists_typed d.type.name d.type.collection
    obtain ⟨value, hvalue⟩ := exists_initialized h
    have hverb : (Token.word .isWord "").kind ∈ [.isWord, .areWord] := by decide
    exact ⟨_, .declared hthe hname hverb htype hvalue⟩
  | shapeDeclaration d => exact exists_shape h
  | constantDeclaration r e =>
    obtain ⟨name, hname⟩ := exists_words r.name
    obtain ⟨ts, he⟩ := exists_literal h.2
    exact ⟨_, .constant hthe hname his he⟩
  | unitAlias r e base =>
    obtain ⟨name, hname⟩ := exists_words r.name
    cases e with
    | int n =>
      have hamount := Token.word_kind .intLiteral (toString n)
      have hunit := Token.word_kind .identifier (base.name ++ "s")
      exact ⟨_, .unit hthe hname his (.int hamount rfl) hunit rfl⟩
    | _ => exact h.elim
  | pointerDeclaration r base =>
    obtain ⟨name, hname⟩ := exists_words r.name
    obtain ⟨type, htype⟩ := exists_typed base.name base.collection
    have hpointer : isPointerWord (.word .identifier "pointer") = true := by decide
    exact ⟨_, .pointer hone hname his hone hpointer (Token.word_kind .toWord "") htype⟩
  | expression e =>
    cases e with
    | update inPlace op operand target =>
      obtain ⟨rfl, hsay⟩ := h
      exact exists_update hsay
    | assignment target value =>
      obtain ⟨ts, hvalue⟩ := exists_shown h.1
      obtain ⟨us, htarget⟩ := exists_possessions target
      have hinto : (Token.word .intoWord "").kind ∈ [.intoWord, .inWord] := by decide
      exact ⟨_, .put (Token.word_kind .putWord "") hvalue hinto htarget⟩
    | _ => exact h.elim
  | result value =>
    obtain ⟨ts, hvalue⟩ := exists_shown h.1
    have hopening : [Token.word .returnWord ""].map Token.kind ∈
        [[.resultWord, .isWord], [.returnWord]] := by decide
    exact ⟨_, .result hopening hvalue⟩
  | _ => exact h.elim

theorem exists_several {body : List Stmt} (hne : body ≠ []) (h : ∀ s ∈ body, s.IsPlain) :
    ∃ ts, Several body ts := by
  induction body with
  | nil => exact absurd rfl hne
  | cons s body ih =>
    obtain ⟨ts, hs⟩ := exists_plainly (h s List.mem_cons_self)
    cases body with
    | nil => exact ⟨ts, .last hs⟩
    | cons s' body =>
      obtain ⟨us, hlater⟩ := ih (List.cons_ne_nil _ _) fun s hs => h s (List.mem_cons_of_mem _ hs)
      exact ⟨_, .more hs (Token.word_kind .semicolon "") hlater⟩

theorem exists_worded_of_nested {s : Stmt} (h : s.IsNested) : ∃ ts, s.Worded ts := by
  have hthen : (Token.word .thenWord "").kind ∈ [.thenWord, .comma] := by decide
  fun_induction Stmt.IsNested s with
  | case1 test branch span ih =>
    obtain ⟨hsay, -, hnested⟩ := h
    obtain ⟨ts, htest⟩ := exists_shown hsay.1
    obtain ⟨us, hbranch⟩ := ih hnested
    exact ⟨_, .conditional (Token.word_kind .ifWord "") htest hthen hbranch⟩
  | case2 s =>
    obtain ⟨ts, hs⟩ := exists_plainly h
    exact ⟨ts, .plain hs⟩

end Grammar

/-- Every statement that can be said has tokens that say it. -/
theorem Stmt.Sayable.exists_worded {s : Stmt} (h : s.Sayable) : ∃ ts, s.Worded ts := by
  fun_cases Stmt.Sayable s with
  | case1 test body inner span =>
    obtain ⟨hsay, -, hlength, hplain⟩ := h
    obtain ⟨ts, htest⟩ := exists_shown hsay.1
    obtain ⟨us, hbody⟩ := exists_several (by rintro rfl; simp at hlength) hplain
    have hthen : (Token.word .thenWord "").kind ∈ [.thenWord, .comma] := by decide
    exact ⟨_, .several (Token.word_kind .ifWord "") htest hthen hbody⟩
  | case2 => exact exists_worded_of_nested (by simpa only [Stmt.Sayable] using h)

end Prose
