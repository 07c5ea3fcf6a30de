import Prose.Proofs.Grammar.DeclarationComplete

/- Kinds that stand nowhere in what is said. A condition ends at the first `then` or
   comma, its branches end at semicolons, and blanks and comments are passed over. So
   none of these may be part of what they end or of what has to be read. -/
namespace Prose.Grammar

/-- Kinds that no sentence is said with. -/
def outsideSentences : List Kind := [.comment, .blank, .stop]

/-- Kinds that no statement without a condition is said with. -/
def outsideStatements : List Kind := .semicolon :: outsideSentences

/-- Kinds that no expression is said with. -/
def outsideExpressions : List Kind := [.thenWord, .comma] ++ outsideStatements

/-- None of the tokens is of one of the kinds. -/
def Avoids (kinds : List Kind) (ts : List Token) : Prop := ∀ t ∈ ts, t.kind ∉ kinds

namespace Avoids

variable {kinds : List Kind} {ts us : List Token} {t : Token} {k : Kind}

theorem nil : Avoids kinds [] := fun _ h => absurd h List.not_mem_nil

theorem append (hts : Avoids kinds ts) (hus : Avoids kinds us) : Avoids kinds (ts ++ us) :=
  fun t ht => (List.mem_append.1 ht).elim (hts t) (hus t)

theorem cons (ht : t.kind ∉ kinds) (hts : Avoids kinds ts) : Avoids kinds (t :: ts) :=
  fun u hu => (List.mem_cons.1 hu).elim (fun h => h ▸ ht) (hts u)

theorem mono {kinds' : List Kind} (h : Avoids kinds ts) (hsub : ∀ k ∈ kinds', k ∈ kinds) :
    Avoids kinds' ts :=
  fun t ht hmem => h t ht (hsub _ hmem)

/-- Tokens of fixed kinds. -/
theorem of_phrase {phrase : List Kind} (h : Says phrase ts) (hphrase : ∀ k ∈ phrase, k ∉ kinds) :
    Avoids kinds ts :=
  fun _ ht => hphrase _ (h ▸ List.mem_map_of_mem ht)

theorem of_words {name : String} (h : Words name ts) (hk : .identifier ∉ kinds) : Avoids kinds ts :=
  fun t ht => by rw [h.2.1 t ht]; exact hk

end Avoids

theorem avoids_maybeArticle {ts : List Token} (h : MaybeArticle ts) : Avoids outsideExpressions ts := by
  rcases h with rfl | ⟨k, hk, hphrase⟩
  · exact .nil
  · have harticles : ∀ k ∈ articles, k ∉ outsideExpressions := by decide
    exact .of_phrase hphrase fun k' hk' => List.mem_singleton.1 hk' ▸ harticles k hk

theorem avoids_possessions {path : List String} {ts : List Token} (h : Possessions path ts) :
    Avoids outsideExpressions ts := by
  have harticles : ∀ k ∈ articles, k ∉ outsideExpressions := by decide
  induction h with
  | name h hname => exact .cons (harticles _ h) (.of_words hname (by decide))
  | slot _ hapostrophe harticle hname ih =>
    have hkind : Kind.possessive ∉ outsideExpressions := by decide
    exact ih.append (.cons (hapostrophe ▸ hkind)
      ((avoids_maybeArticle harticle).append (.of_words hname (by decide))))

theorem avoids_literal {e : Expr} {ts : List Token} (h : LiteralShown e ts) :
    Avoids outsideExpressions ts := by
  cases h with
  | int h => exact .cons (by rw [h]; decide) .nil
  | inches h _ hu => exact .cons (by rw [h]; decide) (.cons (by rw [hu]; decide) .nil)
  | text h => exact .cons (by rw [h]; decide) .nil
  | bytes h => exact .cons (by rw [h]; decide) .nil
  | ratio h => exact .cons (by rw [h]; decide) .nil
  | null h => exact .cons (by rw [h]; decide) .nil

theorem avoids_shown {e : Expr} {ts : List Token} (h : Shown e ts) : Avoids outsideExpressions ts := by
  induction h with
  | operand h =>
    cases h with
    | literal h => exact avoids_literal h
    | slot h hapostrophe hname =>
      have hkind : Kind.possessive ∉ outsideExpressions := by decide
      exact (avoids_literal h).append (.cons (hapostrophe ▸ hkind) (.of_words hname (by decide)))
    | reference h => exact avoids_possessions h
  | @math op _ _ _ _ _ _ _ hop _ ihfirst ihsecond =>
    have hwords : ∀ op : MathOp, ∀ k ∈ op.words, k ∉ outsideExpressions := by
      rintro (_ | _ | _ | _) <;> decide
    exact ihfirst.append (.append (.of_phrase hop (hwords op)) ihsecond)
  | comparison _ hop _ ihfirst ihsecond =>
    have hwords : ∀ e ∈ comparisons, ∀ k ∈ e.1, k ∉ outsideExpressions := by decide
    exact ihfirst.append (.append (.of_phrase rfl (hwords _ hop)) ihsecond)

theorem avoids_typed {name : String} {collection : Bool} {ts : List Token}
    (h : Typed name collection ts) : Avoids outsideStatements ts := by
  obtain ⟨article, words, rfl, hkind, -, hname⟩ := h.parts
  have harticles : ∀ k ∈ [Kind.indefiniteArticle, .someWord], k ∉ outsideStatements := by decide
  exact .cons (harticles _ hkind) (.of_words hname (by decide))

/-- What no expression is said with is more than what no statement is said with. -/
theorem Avoids.statement {ts : List Token} (h : Avoids outsideExpressions ts) :
    Avoids outsideStatements ts := h.mono fun _ => List.mem_append_right _

theorem avoids_maybeTo {ts : List Token} (h : MaybeTo ts) : Avoids outsideStatements ts := by
  rcases h with rfl | h
  · exact .nil
  · exact .of_phrase h (by decide)

theorem avoids_initialized {value : Option Expr} {ts : List Token} (h : Initialized value ts) :
    Avoids outsideStatements ts := by
  cases h with
  | none => exact .nil
  | some hequal hto he =>
    have hkind : Kind.equalWord ∉ outsideStatements := by decide
    exact .cons (hequal ▸ hkind) ((avoids_maybeTo hto).append (avoids_shown he).statement)

theorem avoids_slots {ss : List Slot} {ts : List Token} (h : Slots ss ts) :
    Avoids outsideStatements ts := by
  have halias {other : Option String} {us : List Token} (h : Aliased other us) :
      Avoids outsideStatements us := by
    cases h with
    | none => exact .nil
    | is hverb harticle hname =>
      exact .cons (by rw [hverb]; decide)
        ((avoids_maybeArticle harticle).statement.append (.of_words hname (by decide)))
    | «at» hat harticle hname =>
      exact .cons (by rw [hat]; decide) (.cons (by rw [harticle]; decide)
        (.of_words hname (by decide)))
  induction h with
  | last htype hother => exact (avoids_typed htype).append (halias hother)
  | more htype hother hseparator _ ih =>
    have hphrases : ∀ ks ∈ [[Kind.comma], [.andWord], [.comma, .andWord]], ∀ k ∈ ks,
        k ∉ outsideStatements := by decide
    exact (avoids_typed htype).append ((halias hother).append
      (.append (.of_phrase rfl (hphrases _ hseparator)) ih))

/-- A declaration opens with an article, a name and a verb. -/
theorem avoids_opening {article verb : Token} {text : String} {name ts : List Token}
    (harticle : article.kind ∉ outsideStatements) (hname : Words text name)
    (hverb : verb.kind ∉ outsideStatements) (hts : Avoids outsideStatements ts) :
    Avoids outsideStatements (article :: (name ++ verb :: ts)) :=
  .cons harticle (.append (.of_words hname (by decide)) (.cons hverb hts))

/-- No semicolon and nothing that would be passed over is part of a statement without
    a condition. -/
theorem avoids_plainly {s : Stmt} {ts : List Token} (h : Plainly s ts) :
    Avoids outsideStatements ts := by
  have hmem {t : Token} {kinds : List Kind} (ht : t.kind ∈ kinds)
      (hkinds : ∀ k ∈ kinds, k ∉ outsideStatements) : t.kind ∉ outsideStatements := hkinds _ ht
  have hword {t : Token} {k : Kind} (ht : t.kind = k) (hk : k ∉ outsideStatements) :
      t.kind ∉ outsideStatements := ht ▸ hk
  cases h with
  | declared hthe hname hverb htype hvalue =>
    refine avoids_opening (hword hthe (by decide)) hname (hmem hverb (by decide)) ?_
    exact (avoids_typed htype).append (avoids_initialized hvalue)
  | constant hthe hname hverb he =>
    refine avoids_opening (hword hthe (by decide)) hname (hword hverb (by decide)) ?_
    exact (avoids_literal he).statement
  | unit hthe hname hverb hamount hunit =>
    refine avoids_opening (hword hthe (by decide)) hname (hword hverb (by decide)) ?_
    exact (avoids_literal hamount).statement.append (.cons (hword hunit (by decide)) .nil)
  | pointer harticle hname hverb hone hpointer hto htype =>
    have hkind := eq_of_beq (Bool.and_eq_true_iff.1 hpointer).1
    refine avoids_opening (hword harticle (by decide)) hname (hword hverb (by decide)) ?_
    refine .cons (hword hone (by decide)) (.cons (hword hkind (by decide)) ?_)
    exact .cons (hword hto (by decide)) (avoids_typed htype)
  | shape harticle hname hverb htype =>
    exact avoids_opening (hword harticle (by decide)) hname (hword hverb (by decide))
      (avoids_typed htype)
  | shapeWith harticle hname hverb htype hwith hslots =>
    refine avoids_opening (hword harticle (by decide)) hname (hword hverb (by decide)) ?_
    exact (avoids_typed htype).append (.cons (hword hwith (by decide)) (avoids_slots hslots))
  | shapeOf harticle hname hverb hslots =>
    exact avoids_opening (hword harticle (by decide)) hname (hword hverb (by decide))
      (avoids_slots hslots)
  | sum hverb hoperand htarget =>
    have hverbs : ∀ e ∈ sumVerbs, e.2.1 ∉ outsideStatements ∧ e.2.2 ∉ outsideStatements := by decide
    have hkinds := hverbs _ hverb
    exact .cons hkinds.1 ((avoids_shown hoperand).statement.append
      (.cons hkinds.2 (avoids_possessions htarget).statement))
  | factor hverb htarget hby hoperand =>
    have hverbs : ∀ e ∈ factorVerbs, e.2 ∉ outsideStatements := by decide
    exact .cons (hverbs _ hverb) ((avoids_possessions htarget).statement.append
      (.cons (hword hby (by decide)) (avoids_shown hoperand).statement))
  | put hverb hvalue hinto htarget =>
    exact .cons (hword hverb (by decide)) ((avoids_shown hvalue).statement.append
      (.cons (hmem hinto (by decide)) (avoids_possessions htarget).statement))
  | letBe hverb htarget hcopula hto hvalue =>
    exact .cons (hword hverb (by decide)) ((avoids_possessions htarget).statement.append
      (.cons (hmem hcopula (by decide)) ((avoids_maybeTo hto).append (avoids_shown hvalue).statement)))
  | result hopening hvalue =>
    have hphrases : ∀ ks ∈ [[Kind.resultWord, .isWord], [.returnWord]], ∀ k ∈ ks,
        k ∉ outsideStatements := by decide
    exact .append (.of_phrase rfl (hphrases _ hopening)) (avoids_shown hvalue).statement

theorem Avoids.sentence {ts : List Token} (h : Avoids outsideStatements ts) :
    Avoids outsideSentences ts := h.mono fun _ => List.mem_cons_of_mem _

theorem avoids_several {body : List Stmt} {ts : List Token} (h : Several body ts) :
    Avoids outsideSentences ts := by
  induction h with
  | last h => exact (avoids_plainly h).sentence
  | more h hsemicolon _ ih =>
    have hkind : Kind.semicolon ∉ outsideSentences := by decide
    exact (avoids_plainly h).sentence.append (.cons (hsemicolon ▸ hkind) ih)

theorem avoids_worded {s : Stmt} {ts : List Token} (h : s.Worded ts) : Avoids outsideSentences ts := by
  have hif : Kind.ifWord ∉ outsideSentences := by decide
  have hthen : ∀ k ∈ [Kind.thenWord, .comma], k ∉ outsideSentences := by decide
  induction h with
  | plain h => exact (avoids_plainly h).sentence
  | conditional hopening htest hseparator _ ih =>
    exact .cons (hopening ▸ hif) ((avoids_shown htest).statement.sentence.append
      (.cons (hthen _ hseparator) ih))
  | several hopening htest hseparator hbody =>
    exact .cons (hopening ▸ hif) ((avoids_shown htest).statement.sentence.append
      (.cons (hthen _ hseparator) (avoids_several hbody)))

end Prose.Grammar
