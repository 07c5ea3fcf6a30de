import Mathlib
import Prose.Proofs.Grammar.Markers
import Prose.Token.Scan

/- What becomes of the tokens of a marker phrase. A result stands at the end of a phrase and
   parameters wherever an article has a name behind it, both as far as the name goes. Every
   other token is a word of the marker, only an `and` between two parameters is none. Where
   the parts of a phrase are is said by the kinds of its tokens alone, and nothing is said of
   how the phrase is split; the one loop that splits it finds all of them. -/
namespace Prose.Grammar

variable {openings articles : List Kind} {ts rest next : List Token} {i j k n : Nat} {t : Token}
  {r : Reference} {m : MarkerPhrase}

/-! Parts of a phrase. -/

/-- The kind of the token at an index, if there is one. -/
def kindAt? (ts : List Token) (i : Nat) : Option Kind := ts[i]?.map Token.kind

/-- The token at an index has one of the kinds. -/
def OfKind (kinds : List Kind) (ts : List Token) (i : Nat) : Prop :=
  ∃ k ∈ kinds, kindAt? ts i = some k

/-- The tokens from one index up to another. -/
def tokensFrom (ts : List Token) (i j : Nat) : List Token := (ts.drop i).take (j - i)

/-- An article with a name behind it: the words from the next index up to another one, as far
    as there are some. -/
structure NameAt (articles : List Kind) (ts : List Token) (i j : Nat) : Prop where
  article : OfKind articles ts i
  nonempty : i + 1 < j
  words : ∀ k, i < k → k < j → kindAt? ts k = some .identifier
  maximal : kindAt? ts j ≠ some .identifier

/-- The use of a name that stands there. -/
def referenceAt (ts : List Token) (i j : Nat) : Reference :=
  .plain (Token.joinTexts (tokensFrom ts (i + 1) j)) (.ofTokens (tokensFrom ts i j))

/-- The result of a phrase: a word that introduces it, `a|an|the <name>`, and nothing but
    comments behind. -/
structure ResultAt (openings : List Kind) (ts : List Token) (i j : Nat) : Prop where
  opening : OfKind openings ts i
  name : NameAt [.indefiniteArticle, .definiteArticle] ts (i + 1) j
  comments : ∀ t ∈ ts.drop j, t.kind = .comment

/-- A parameter of a phrase: `a|an|some <name>` that is not the result. -/
structure ParameterAt (openings : List Kind) (ts : List Token) (i j : Nat) : Prop where
  name : NameAt [.indefiniteArticle, .someWord] ts i j
  apart : ∀ k l, ResultAt openings ts k l → k + 1 ≠ i

/-- An `and` directly between two parameters. -/
def JoinsAt (openings : List Kind) (ts : List Token) (k : Nat) : Prop :=
  kindAt? ts k = some .andWord ∧ (∃ i, ParameterAt openings ts i k) ∧
    ∃ j, ParameterAt openings ts (k + 1) j

/-- A token of no other part of the phrase. -/
structure WordAt (openings : List Kind) (ts : List Token) (k : Nat) : Prop where
  inside : k < ts.length
  noResult : ∀ i j, ResultAt openings ts i j → ¬(i ≤ k ∧ k < j)
  noParameter : ∀ i j, ParameterAt openings ts i j → ¬(i ≤ k ∧ k < j)
  noJoint : ¬JoinsAt openings ts k

/-- The items of a list are what `f` makes of all that `P` is true of, each once and in the
    order of `before`. -/
def Lists {α β : Type} (P : α → Prop) (before : α → α → Prop) (f : α → β) (items : List β) : Prop :=
  ∃ places : List α, (∀ a, a ∈ places ↔ P a) ∧ places.Pairwise before ∧ items = places.map f

/-- What a phrase is split into from an index on: its result, and all parameters and words that
    are there. -/
structure Accounts (openings : List Kind) (ts : List Token) (n : Nat) (m : MarkerPhrase) : Prop where
  result : ∀ r, m.result = some r ↔ ∃ i j, ResultAt openings ts i j ∧ r = referenceAt ts (i + 1) j
  parameters : Lists (fun p : Nat × Nat => n ≤ p.1 ∧ ParameterAt openings ts p.1 p.2)
    (fun p q => p.2 ≤ q.1) (fun p => referenceAt ts p.1 p.2) m.parameters
  words : Lists (fun k => n ≤ k ∧ WordAt openings ts k) (· < ·) (fun k => ts[k]?.map Token.text)
    (m.words.map some)

/-! Tokens by their indices. -/

theorem drop_eq_cons (h : ts.drop n = t :: rest) : ts[n]? = some t ∧ ts.drop (n + 1) = rest := by
  rw [← List.head?_drop, ← List.tail_drop, h]
  exact ⟨rfl, rfl⟩

theorem kindAt?_of_drop (h : ts.drop n = t :: rest) : kindAt? ts n = some t.kind := by
  rw [kindAt?, (drop_eq_cons h).1]
  rfl

theorem exists_of_kindAt? {kind : Kind} (h : kindAt? ts n = some kind) :
    ∃ t, ts.drop n = t :: ts.drop (n + 1) ∧ t.kind = kind := by
  obtain ⟨t, ht, hkind⟩ := Option.map_eq_some_iff.1 h
  obtain ⟨hlt, rfl⟩ := List.getElem?_eq_some_iff.1 ht
  exact ⟨ts[n], List.drop_eq_getElem_cons hlt, hkind⟩

theorem OfKind.mono {kinds others : List Kind} (h : OfKind kinds ts k)
    (hsub : ∀ x ∈ kinds, x ∈ others) : OfKind others ts k := by
  obtain ⟨x, hx, hkind⟩ := h
  exact ⟨x, hsub x hx, hkind⟩

theorem OfKind.apart {kinds others : List Kind} (h : OfKind kinds ts k) (h' : OfKind others ts k)
    (hapart : ∀ x ∈ kinds, x ∉ others) : False := by
  obtain ⟨x, hx, hkind⟩ := h
  obtain ⟨y, hy, hkind'⟩ := h'
  obtain rfl := Option.some.inj (hkind.symm.trans hkind')
  exact hapart x hx hy

theorem ofKind_singleton {kind : Kind} (h : kindAt? ts k = some kind) : OfKind [kind] ts k :=
  ⟨kind, List.mem_singleton_self kind, h⟩

theorem lt_of_kindAt? {kind : Kind} (h : kindAt? ts n = some kind) : n < ts.length := by
  obtain ⟨t, ht, -⟩ := Option.map_eq_some_iff.1 h
  exact (List.getElem?_eq_some_iff.1 ht).1

theorem tokensFrom_append_drop (h : i ≤ j) : tokensFrom ts i j ++ ts.drop j = ts.drop i := by
  have hsplit := List.take_append_drop (j - i) (ts.drop i)
  rwa [List.drop_drop, Nat.add_sub_cancel' h] at hsplit

theorem length_tokensFrom (h : j ≤ ts.length) : (tokensFrom ts i j).length = j - i := by
  rw [tokensFrom, List.length_take, List.length_drop]
  omega

theorem getElem?_tokensFrom {x : Nat} (h : i + x < j) : (tokensFrom ts i j)[x]? = ts[i + x]? := by
  rw [tokensFrom, List.getElem?_take_of_lt (by omega), List.getElem?_drop]

/-- Some tokens and those that follow them. -/
theorem tokensFrom_of_drop {us : List Token} (h : ts.drop i = us ++ next) (hj : i + us.length = j) :
    tokensFrom ts i j = us ∧ ts.drop j = next := by
  subst hj
  rw [tokensFrom, ← List.drop_drop, h, Nat.add_sub_cancel_left, List.take_left, List.drop_left]
  exact ⟨rfl, rfl⟩

/-! Names by their indices. -/

namespace NameAt

theorem unique (h : NameAt articles ts i j) {others : List Kind} {l : Nat}
    (h' : NameAt others ts i l) : j = l := by
  have hj := h.nonempty
  have hl := h'.nonempty
  rcases Nat.lt_trichotomy j l with hlt | heq | hlt
  · exact absurd (h'.words j (by omega) hlt) h.maximal
  · exact heq
  · exact absurd (h.words l (by omega) hlt) h'.maximal

theorem le_length (h : NameAt articles ts i j) : j ≤ ts.length := by
  have hj := h.nonempty
  have hlast := lt_of_kindAt? (h.words (j - 1) (by omega) (by omega))
  omega

/-- All words of the name are words. -/
theorem mem_words (h : NameAt articles ts i j) :
    ∀ u ∈ tokensFrom ts (i + 1) j, u.kind = .identifier := by
  intro u hu
  obtain ⟨x, hx, rfl⟩ := List.mem_iff_getElem.1 hu
  have hlt : i + 1 + x < j := by
    rw [length_tokensFrom h.le_length] at hx
    omega
  have hkind := h.words (i + 1 + x) (by omega) hlt
  rw [kindAt?, ← getElem?_tokensFrom hlt, List.getElem?_eq_getElem hx] at hkind
  exact Option.some.inj hkind

end NameAt

/-- The names that stand behind articles are those that are read there. -/
theorem nameAfter_drop_iff :
    (∃ article rest, ts.drop i = article :: rest ∧ article.kind ∈ articles ∧
      nameAfter article rest = some (r, next)) ↔
    ∃ j, NameAt articles ts i j ∧ r = referenceAt ts i j ∧ next = ts.drop j := by
  constructor
  · rintro ⟨article, rest, hdrop, harticle, hname⟩
    obtain ⟨name, rfl, hne, hkinds, hnext, rfl⟩ := nameAfter_eq_some_iff.1 hname
    have hlength := List.length_pos_iff.2 hne
    have hcons : ts.drop i = (article :: name) ++ next := hdrop
    obtain ⟨hwhole, hbehind⟩ := tokensFrom_of_drop hcons rfl
    obtain ⟨hwords, -⟩ := tokensFrom_of_drop (j := i + (article :: name).length)
      (drop_eq_cons hdrop).2 (by rw [List.length_cons]; omega)
    refine ⟨_, ⟨⟨_, harticle, kindAt?_of_drop hdrop⟩, ?_, fun k hik hkj => ?_, ?_⟩,
      by rw [referenceAt, hwords, hwhole], hbehind.symm⟩
    · rw [List.length_cons]
      omega
    · obtain ⟨x, rfl⟩ := Nat.exists_eq_add_of_lt hik
      have hx : x < name.length := by
        rw [List.length_cons] at hkj
        omega
      rw [kindAt?, Nat.add_right_comm, ← getElem?_tokensFrom (by rwa [Nat.add_right_comm]), hwords,
        List.getElem?_eq_getElem hx, Option.map_some, hkinds _ (List.getElem_mem hx)]
    · intro hkind
      obtain ⟨u, hu, hkind⟩ := exists_of_kindAt? hkind
      rw [hbehind] at hu
      exact hnext u (by rw [hu]; rfl) hkind
  · rintro ⟨j, h, rfl, rfl⟩
    obtain ⟨k, hk, hkind⟩ := h.article
    obtain ⟨article, hdrop, rfl⟩ := exists_of_kindAt? hkind
    have hnonempty := h.nonempty
    have hlength := length_tokensFrom (i := i + 1) h.le_length
    have hbehind : tokensFrom ts (i + 1) j ++ ts.drop j = ts.drop (i + 1) :=
      tokensFrom_append_drop (Nat.le_of_lt hnonempty)
    have hcons : ts.drop i = (article :: tokensFrom ts (i + 1) j) ++ ts.drop j := by
      rw [List.cons_append, hbehind, hdrop]
    obtain ⟨hwhole, -⟩ := tokensFrom_of_drop (j := j) hcons (by rw [List.length_cons]; omega)
    refine ⟨article, _, hdrop, hk, nameAfter_eq_some_iff.2
      ⟨tokensFrom ts (i + 1) j, hbehind.symm, ?_, h.mem_words, ?_, by rw [referenceAt, hwhole]⟩⟩
    · rw [← List.length_pos_iff]
      omega
    · intro u hu hkind
      rw [List.head?_drop] at hu
      exact h.maximal (by rw [kindAt?, Option.mem_def.1 hu, Option.map_some, hkind])

/-- Parameters are read where they stand, and nowhere else. -/
theorem parameterAt_drop_iff : parameterAt (ts.drop i) = some (r, next) ↔
    ∃ j, NameAt [.indefiniteArticle, .someWord] ts i j ∧ r = referenceAt ts i j ∧ next = ts.drop j :=
  parameterAt_eq_some_iff.trans nameAfter_drop_iff

/-- So are results. -/
theorem finalResult_drop_iff : finalResult (ts.drop (i + 1)) = some (r, next) ↔
    ∃ j, (NameAt [.indefiniteArticle, .definiteArticle] ts (i + 1) j ∧
      ∀ t ∈ ts.drop j, t.kind = .comment) ∧ r = referenceAt ts (i + 1) j ∧ next = ts.drop j := by
  rw [finalResult_eq_some_iff, resultAt_eq_some_iff, nameAfter_drop_iff]
  constructor
  · rintro ⟨⟨j, hname, hr, rfl⟩, hcomments⟩
    exact ⟨j, ⟨hname, hcomments⟩, hr, rfl⟩
  · rintro ⟨j, ⟨hname, hcomments⟩, hr, rfl⟩
    exact ⟨⟨j, hname, hr, rfl⟩, hcomments⟩

theorem found_drop_iff (hdrop : ts.drop i = t :: rest) :
    (if openings.contains t.kind then finalResult rest else none) = some (r, next) ↔
      ∃ j, ResultAt openings ts i j ∧ r = referenceAt ts (i + 1) j ∧ next = ts.drop j := by
  have hopening : OfKind openings ts i ↔ t.kind ∈ openings := by
    rw [OfKind, kindAt?_of_drop hdrop]
    simp
  rw [Option.ite_none_right_eq_some, List.contains_iff_mem, ← (drop_eq_cons hdrop).2,
    finalResult_drop_iff, ← hopening]
  constructor
  · rintro ⟨hopening, j, ⟨hname, hcomments⟩, h⟩
    exact ⟨j, ⟨hopening, hname, hcomments⟩, h⟩
  · rintro ⟨j, ⟨hopening, hname, hcomments⟩, h⟩
    exact ⟨hopening, j, ⟨hname, hcomments⟩, h⟩

/-! What is listed. -/

section Listed

variable {α β : Type} {P Q : α → Prop} {before : α → α → Prop} {f : α → β} {items : List β} {a : α}

theorem Lists.congr (h : Lists P before f items) (hiff : ∀ a, Q a ↔ P a) :
    Lists Q before f items := by
  obtain ⟨places, hplaces, hrest⟩ := h
  exact ⟨places, fun a => (hplaces a).trans (hiff a).symm, hrest⟩

theorem Lists.nil (h : ∀ a, ¬P a) : Lists P before f [] :=
  ⟨[], fun a => iff_of_false List.not_mem_nil (h a), .nil, rfl⟩

theorem Lists.cons (h : Lists P before f items) (hfirst : ∀ b, P b → before a b)
    (hiff : ∀ b, Q b ↔ b = a ∨ P b) : Lists Q before f (f a :: items) := by
  obtain ⟨places, hplaces, horder, rfl⟩ := h
  have hfront : ∀ b ∈ places, before a b := fun b hb => hfirst b ((hplaces b).1 hb)
  refine ⟨a :: places, fun b => ?_, List.pairwise_cons.2 ⟨hfront, horder⟩, rfl⟩
  rw [List.mem_cons, hplaces, hiff]

end Listed

/-! How far a phrase has been split. -/

/-- A phrase has been split up to an index: no result starts before it and no parameter goes on
    behind it, and it is known whether an `and` there stands behind a parameter. -/
structure Scanned (openings : List Kind) (ts : List Token) (n : Nat) (afterParameter : Bool) : Prop where
  result : ∀ i j, ResultAt openings ts i j → n ≤ i
  parameter : ∀ i j, ParameterAt openings ts i j → i < n → j ≤ n
  joined : kindAt? ts n = some .andWord →
    (afterParameter = true ↔ ∃ i, ParameterAt openings ts i n)

variable {afterParameter : Bool}

theorem scanned_zero (openings : List Kind) (ts : List Token) : Scanned openings ts 0 false where
  result i _ _ := Nat.zero_le i
  parameter _ _ _ h := absurd h (Nat.not_lt_zero _)
  joined _ := iff_of_false Bool.false_ne_true fun ⟨_, h⟩ => absurd h.name.nonempty (Nat.not_lt_zero _)

/-- A name that a parameter may have is one, for results start further on. -/
theorem Scanned.parameterAt_of_name (h : Scanned openings ts n afterParameter)
    (hname : NameAt [.indefiniteArticle, .someWord] ts n j) : ParameterAt openings ts n j := by
  refine ⟨hname, fun k l hresult hk => ?_⟩
  have hle := h.result k l hresult
  omega

/-- One token further on, if it starts no result and no parameter. -/
theorem Scanned.succ {flag : Bool} (h : Scanned openings ts n afterParameter)
    (hresult : ∀ j, ¬ResultAt openings ts n j) (hparameter : ∀ j, ¬ParameterAt openings ts n j)
    (hjoined : kindAt? ts (n + 1) = some .andWord →
      (flag = true ↔ ∃ i, ParameterAt openings ts i (n + 1))) :
    Scanned openings ts (n + 1) flag where
  result i j hij := by
    refine Nat.lt_of_le_of_ne (h.result i j hij) ?_
    rintro rfl
    exact hresult j hij
  parameter i j hij hlt := by
    rcases Nat.lt_succ_iff_lt_or_eq.1 hlt with hlt | rfl
    · exact Nat.le_succ_of_le (h.parameter i j hij hlt)
    · exact absurd hij (hparameter j)
  joined := hjoined

/-! Parameters. -/

namespace ParameterAt

theorem ofKind (h : ParameterAt openings ts i j) (hik : i ≤ k) (hkj : k < j) :
    OfKind [.indefiniteArticle, .someWord, .identifier] ts k := by
  rcases Nat.eq_or_lt_of_le hik with rfl | hlt
  · exact h.name.article.mono (by decide)
  · exact (ofKind_singleton (h.name.words k hlt hkj)).mono (by decide)

/-- No parameter starts in another one. -/
theorem start_eq (h : ParameterAt openings ts n j) {l : Nat} (h' : ParameterAt openings ts i l)
    (hni : n ≤ i) (hij : i < j) : i = n := by
  rcases Nat.eq_or_lt_of_le hni with rfl | hlt
  · rfl
  · exact (h'.name.article.apart (ofKind_singleton (h.name.words i hlt hij)) (by decide)).elim

end ParameterAt

section Openings

variable (hopenings : ∀ k ∈ openings, k ∈ [.intoWord, .inWord])
include hopenings

theorem ResultAt.ofKind (h : ResultAt openings ts i j) : OfKind [.intoWord, .inWord] ts i :=
  h.opening.mono hopenings

theorem ParameterAt.scanned (hparameter : ParameterAt openings ts n j)
    (h : Scanned openings ts n afterParameter) : Scanned openings ts j true where
  result i l hresult := by
    by_contra hlt
    have hkind := hparameter.ofKind (h.result i l hresult) (Nat.lt_of_not_le hlt)
    exact (hresult.ofKind hopenings).apart hkind (by decide)
  parameter i l hil hlt := by
    have hnj := hparameter.name.nonempty
    rcases Nat.lt_or_ge i n with hin | hni
    · have hle := h.parameter i l hil hin
      omega
    · obtain rfl := hparameter.start_eq hil hni hlt
      exact Nat.le_of_eq (hil.name.unique hparameter.name)
  joined _ := iff_of_true rfl ⟨n, hparameter⟩

end Openings

/-- A parameter in front of what is split later. -/
theorem Accounts.addParameter (h : Accounts openings ts j m) (hparameter : ParameterAt openings ts n j) :
    Accounts openings ts n (m.addParameter (referenceAt ts n j)) where
  result := h.result
  parameters := by
    have hnj := hparameter.name.nonempty
    refine h.parameters.cons (a := (n, j)) (fun p hp => hp.1) fun p => ?_
    constructor
    · rintro ⟨hle, hp⟩
      rcases Nat.lt_or_ge p.1 j with hlt | hge
      · have hstart := hparameter.start_eq hp hle hlt
        rw [hstart] at hp
        exact .inl (Prod.ext hstart (hp.name.unique hparameter.name))
      · exact .inr ⟨hge, hp⟩
    · rintro (rfl | ⟨hle, hp⟩)
      · exact ⟨Nat.le_refl n, hparameter⟩
      · exact ⟨by omega, hp⟩
  words := by
    have hnj := hparameter.name.nonempty
    refine h.words.congr fun k => and_congr_left fun hk => ?_
    have hnot := hk.noParameter n j hparameter
    omega

/-! Single tokens. -/

/-- A token that starts no parameter in front. -/
theorem Accounts.parameters_succ (h : Accounts openings ts (n + 1) m)
    (hno : ∀ j, ¬ParameterAt openings ts n j) :
    Lists (fun p : Nat × Nat => n ≤ p.1 ∧ ParameterAt openings ts p.1 p.2) (fun p q => p.2 ≤ q.1)
      (fun p => referenceAt ts p.1 p.2) m.parameters := by
  refine h.parameters.congr fun p => and_congr_left fun hp => ?_
  have hne : n ≠ p.1 := by
    rintro rfl
    exact hno p.2 hp
  omega

theorem Accounts.joint (h : Accounts openings ts (n + 1) m) (hjoins : JoinsAt openings ts n)
    (hno : ∀ j, ¬ParameterAt openings ts n j) : Accounts openings ts n m where
  result := h.result
  parameters := h.parameters_succ hno
  words := by
    refine h.words.congr fun k => and_congr_left fun hk => ?_
    have hne : n ≠ k := by
      rintro rfl
      exact hk.noJoint hjoins
    omega

theorem WordAt.not_parameterAt (h : WordAt openings ts n) (j : Nat) : ¬ParameterAt openings ts n j :=
  fun hj => h.noParameter n j hj ⟨Nat.le_refl n, by have := hj.name.nonempty; omega⟩

theorem WordAt.not_resultAt (h : WordAt openings ts n) (j : Nat) : ¬ResultAt openings ts n j :=
  fun hj => h.noResult n j hj ⟨Nat.le_refl n, by have := hj.name.nonempty; omega⟩

theorem Accounts.addWord (h : Accounts openings ts (n + 1) m) (hword : WordAt openings ts n)
    (ht : ts[n]? = some t) : Accounts openings ts n (m.addWord t.text) where
  result := h.result
  parameters := h.parameters_succ hword.not_parameterAt
  words := by
    have hcons := h.words.cons (a := n) (Q := fun k => n ≤ k ∧ WordAt openings ts k)
      (fun k hk => hk.1) fun k => ?_
    · rwa [ht] at hcons
    · constructor
      · rintro ⟨hle, hk⟩
        rcases Nat.eq_or_lt_of_le hle with rfl | hlt
        · exact .inl rfl
        · exact .inr ⟨hlt, hk⟩
      · rintro (rfl | ⟨hlt, hk⟩)
        · exact ⟨Nat.le_refl k, hword⟩
        · exact ⟨Nat.le_of_lt hlt, hk⟩

theorem Scanned.word (h : Scanned openings ts n afterParameter) (hword : WordAt openings ts n) :
    Scanned openings ts (n + 1) false := by
  refine h.succ hword.not_resultAt hword.not_parameterAt fun _ => ?_
  refine iff_of_false Bool.false_ne_true ?_
  rintro ⟨i, hi⟩
  have hlength := hi.name.nonempty
  exact hword.noParameter i (n + 1) hi (by omega)

/-! The end of a phrase. -/

theorem accounts_nil (h : Scanned openings ts n afterParameter) (hend : ts.length ≤ n) :
    Accounts openings ts n ⟨[], [], none⟩ where
  result r := by
    refine iff_of_false nofun ?_
    rintro ⟨i, j, hij, -⟩
    obtain ⟨x, -, hkind⟩ := hij.opening
    have hlt := lt_of_kindAt? hkind
    have hle := h.result i j hij
    omega
  parameters := .nil fun p hp => by
    obtain ⟨x, -, hkind⟩ := hp.2.name.article
    have hlt := lt_of_kindAt? hkind
    have hle := hp.1
    omega
  words := .nil fun k hk => by
    have hlt := hk.2.inside
    have hle := hk.1
    omega

namespace ResultAt

theorem ofKind_comment (h : ResultAt openings ts n j) (hjk : j ≤ k) (hk : k < ts.length) :
    OfKind [.comment] ts k := by
  have hmem : ts[k] ∈ ts.drop j :=
    List.mem_drop_iff_getElem.2 ⟨k - j, by omega, by simp only [Nat.add_sub_cancel' hjk]⟩
  refine ofKind_singleton ?_
  rw [kindAt?, List.getElem?_eq_getElem hk, Option.map_some, h.comments _ hmem]

theorem ofKind_behind (h : ResultAt openings ts n j) (hnk : n + 1 < k) (hk : k < ts.length) :
    OfKind [.identifier, .comment] ts k := by
  rcases Nat.lt_or_ge k j with hlt | hge
  · exact (ofKind_singleton (h.name.words k hnk hlt)).mono (by decide)
  · exact (h.ofKind_comment hge hk).mono (by decide)

/-- No result starts behind another one. -/
theorem unique (h : ResultAt openings ts n j) (hopenings : ∀ k ∈ openings, k ∈ [.intoWord, .inWord])
    {l : Nat} (h' : ResultAt openings ts i l) (hni : n ≤ i) : i = n ∧ l = j := by
  have hkind := h'.ofKind hopenings
  rcases Nat.eq_or_lt_of_le hni with rfl | hlt
  · exact ⟨rfl, h'.name.unique h.name⟩
  · rcases Nat.eq_or_lt_of_le hlt with rfl | hlt
    · exact (hkind.apart h.name.article (by decide)).elim
    · obtain ⟨x, -, hx⟩ := h'.opening
      exact (hkind.apart (h.ofKind_behind hlt (lt_of_kindAt? hx)) (by decide)).elim

/-- Nor does a parameter. -/
theorem not_parameterAt (h : ResultAt openings ts n j)
    (hopenings : ∀ k ∈ openings, k ∈ [.intoWord, .inWord]) {l : Nat}
    (h' : ParameterAt openings ts i l) (hni : n ≤ i) : False := by
  have hkind := h'.name.article
  rcases Nat.eq_or_lt_of_le hni with rfl | hlt
  · exact hkind.apart (h.ofKind hopenings) (by decide)
  · rcases Nat.eq_or_lt_of_le hlt with rfl | hlt
    · exact h'.apart n j h rfl
    · obtain ⟨x, -, hx⟩ := h'.name.article
      exact hkind.apart (h.ofKind_behind hlt (lt_of_kindAt? hx)) (by decide)

/-- From a result on, the comments behind it are the only words. -/
theorem wordAt_iff (h : ResultAt openings ts n j)
    (hopenings : ∀ k ∈ openings, k ∈ [.intoWord, .inWord])
    (hscanned : Scanned openings ts n afterParameter) :
    n ≤ k ∧ WordAt openings ts k ↔ j ≤ k ∧ k < ts.length := by
  have hnj := h.name.nonempty
  constructor
  · rintro ⟨hle, hk⟩
    have hnot := hk.noResult n j h
    exact ⟨by omega, hk.inside⟩
  · rintro ⟨hle, hlt⟩
    have hcomment := h.ofKind_comment hle hlt
    refine ⟨by omega, hlt, fun i l hil hin => ?_, fun i l hil hin => ?_, fun hjoins => ?_⟩
    · obtain ⟨-, rfl⟩ := h.unique hopenings hil (hscanned.result i l hil)
      omega
    · exact hcomment.apart (hil.ofKind hin.1 hin.2) (by decide)
    · exact hcomment.apart (ofKind_singleton hjoins.1) (by decide)

theorem accounts (h : ResultAt openings ts n j)
    (hopenings : ∀ k ∈ openings, k ∈ [.intoWord, .inWord])
    (hscanned : Scanned openings ts n afterParameter) :
    Accounts openings ts n ⟨(ts.drop j).map Token.text, [], some (referenceAt ts (n + 1) j)⟩ where
  result r := by
    rw [Option.some.injEq]
    constructor
    · rintro rfl
      exact ⟨n, j, h, rfl⟩
    · rintro ⟨i, l, hil, rfl⟩
      obtain ⟨rfl, rfl⟩ := h.unique hopenings hil (hscanned.result i l hil)
      rfl
  parameters := .nil fun p hp => h.not_parameterAt hopenings hp.2 hp.1
  words := by
    refine ⟨List.range' j (ts.length - j), fun k => ?_, List.pairwise_lt_range', ?_⟩
    · have hle := h.name.le_length
      refine List.mem_range'_1.trans (.trans ?_ (h.wordAt_iff hopenings hscanned).symm)
      omega
    · refine List.ext_getElem (by simp) fun x hx hx' => ?_
      simp only [List.length_map, List.length_drop] at hx
      simp [List.getElem?_eq_getElem (show j + x < ts.length by omega)]

end ResultAt

/-! Whole phrases. -/

/-- What the reader of phrases takes for a word is one. -/
theorem Scanned.wordAt (h : Scanned openings ts n afterParameter) (hdrop : ts.drop n = t :: rest)
    (hparameter : parameterAt (t :: rest) = none)
    (hjoint : ¬(t.kind == .andWord && afterParameter && (parameterAt rest).isSome) = true)
    (hresult : (if openings.contains t.kind then finalResult rest else none) = none) :
    WordAt openings ts n := by
  have hkind := kindAt?_of_drop hdrop
  refine ⟨lt_of_kindAt? hkind, fun i j hij hin => ?_, fun i j hij hin => ?_, ?_⟩
  · obtain rfl := Nat.le_antisymm hin.1 (h.result i j hij)
    rw [(found_drop_iff hdrop).2 ⟨j, hij, rfl, rfl⟩] at hresult
    cases hresult
  · rcases Nat.eq_or_lt_of_le hin.1 with rfl | hlt
    · rw [← hdrop, parameterAt_drop_iff.2 ⟨j, hij.name, rfl, rfl⟩] at hparameter
      cases hparameter
    · have hle := h.parameter i j hij hlt
      omega
  · rintro ⟨hand, hbefore, j, hj⟩
    refine hjoint ?_
    rw [← (drop_eq_cons hdrop).2, parameterAt_drop_iff.2 ⟨j, hj.name, rfl, rfl⟩,
      (h.joined hand).2 hbefore, Option.some.inj (hkind.symm.trans hand)]
    rfl

/-- What it takes for a joint is one, and the next parameter starts behind it. -/
theorem Scanned.joinsAt (h : Scanned openings ts n true) (hdrop : ts.drop n = t :: rest)
    (hopenings : ∀ k ∈ openings, k ∈ [.intoWord, .inWord]) (ht : t.kind = .andWord)
    (hparameter : (parameterAt rest).isSome) :
    JoinsAt openings ts n ∧ (∀ j, ¬ParameterAt openings ts n j) ∧
      Scanned openings ts (n + 1) true := by
  have hkind := ht ▸ kindAt?_of_drop hdrop
  obtain ⟨⟨r, next⟩, hr⟩ := Option.isSome_iff_exists.1 hparameter
  rw [← (drop_eq_cons hdrop).2] at hr
  obtain ⟨j, hname, -, -⟩ := parameterAt_drop_iff.1 hr
  have hno (l : Nat) (hl : ParameterAt openings ts n l) : False :=
    hl.name.article.apart (ofKind_singleton hkind) (by decide)
  have hlater : Scanned openings ts (n + 1) true := by
    refine h.succ (fun l hl => ?_) hno fun hand => ?_
    · exact (hl.ofKind hopenings).apart (ofKind_singleton hkind) (by decide)
    · exact (hname.article.apart (ofKind_singleton hand) (by decide)).elim
  exact ⟨⟨hkind, (h.joined hkind).1 rfl, j, hlater.parameterAt_of_name hname⟩, hno, hlater⟩

/-- A phrase that is split is accounted for, from every index on that splitting gets to. -/
theorem accounts_splitMarker (hopenings : ∀ k ∈ openings, k ∈ [.intoWord, .inWord])
    (hdrop : ts.drop n = rest) (hscanned : Scanned openings ts n afterParameter)
    (h : splitMarker openings n afterParameter rest = .ok m) : Accounts openings ts n m := by
  fun_induction splitMarker openings n afterParameter rest generalizing m with
  | case1 n =>
    obtain rfl := Except.ok.inj h
    exact accounts_nil hscanned (List.drop_eq_nil_iff.1 hdrop)
  | case2 n afterParameter t rest r next hparameter ih =>
    rw [← hdrop] at hparameter
    obtain ⟨j, hname, rfl, rfl⟩ := parameterAt_drop_iff.1 hparameter
    have hj := hscanned.parameterAt_of_name hname
    have hindex : n + (rest.length + 1 - (ts.drop j).length) = j := by
      have hlength := congrArg List.length hdrop
      have hnonempty := hname.nonempty
      have hle := hname.le_length
      rw [List.length_drop, List.length_cons] at hlength
      rw [List.length_drop]
      omega
    obtain ⟨later, hlater, rfl⟩ := map_eq_ok h
    rw [hindex] at ih hlater
    exact (ih rfl (hj.scanned hopenings hscanned) hlater).addParameter hj
  | case3 n afterParameter t rest hparameter hand ih =>
    simp only [Bool.and_eq_true, beq_iff_eq] at hand
    obtain ⟨⟨ht, rfl⟩, hsome⟩ := hand
    obtain ⟨hjoins, hno, hlater⟩ := hscanned.joinsAt hdrop hopenings ht hsome
    exact (ih (drop_eq_cons hdrop).2 hlater h).joint hjoins hno
  | case4 n afterParameter t rest hparameter hand r trailing hresult =>
    rw [dite_eq_ite] at hresult
    obtain ⟨j, hj, rfl, rfl⟩ := (found_drop_iff hdrop).1 hresult
    obtain rfl := Except.ok.inj h
    exact hj.accounts hopenings hscanned
  | case5 n afterParameter t rest hparameter hand hresult hword ih =>
    rw [dite_eq_ite] at hresult
    have hwordAt := hscanned.wordAt hdrop hparameter hand hresult
    obtain ⟨later, hlater, rfl⟩ := map_eq_ok h
    obtain ⟨ht, hdrop⟩ := drop_eq_cons hdrop
    exact (ih hdrop (hscanned.word hwordAt) hlater).addWord hwordAt ht
  | case6 => cases h

/-! Phrases that cannot be split. -/

/-- The first token that cannot be part of a marker stands at an index. -/
structure FirstUnfit (ts : List Token) (i : Nat) : Prop where
  unfit : ∃ t, ts[i]? = some t ∧ ¬CanMark t
  before : ∀ k < i, ∀ t, ts[k]? = some t → CanMark t

theorem FirstUnfit.unique (h : FirstUnfit ts i) (h' : FirstUnfit ts j) : i = j := by
  obtain ⟨t, ht, hunfit⟩ := h.unfit
  obtain ⟨t', ht', hunfit'⟩ := h'.unfit
  rcases Nat.lt_trichotomy i j with hlt | heq | hlt
  · exact absurd (h'.before i hlt t ht) hunfit
  · exact heq
  · exact absurd (h.before j hlt t' ht') hunfit'

/-- A phrase that cannot be split fails at the first such token. -/
theorem splitMarker_eq_error (h : splitMarker openings n afterParameter ts = .error i) :
    ∃ before t after, ts = before ++ t :: after ∧ i = n + before.length ∧
      (∀ u ∈ before, CanMark u) ∧ ¬CanMark t := by
  fun_induction splitMarker openings n afterParameter ts generalizing i with
  | case1 => cases h
  | case2 n afterParameter t rest r next hparameter ih =>
    obtain ⟨taken, htaken, hkinds⟩ := parameterAt_eq_some hparameter
    have hall : ∀ k ∈ [Kind.indefiniteArticle, .someWord, .identifier], k.isWordLike := by decide
    obtain ⟨before, u, after, rfl, rfl, hbefore, hu⟩ := ih (map_eq_error h)
    have hlength := congrArg List.length htaken
    simp only [List.length_append, List.length_cons] at hlength
    refine ⟨taken ++ before, u, after, ?_, ?_, ?_, hu⟩
    · rw [htaken, List.append_assoc]
    · simp only [List.length_append, List.length_cons]
      omega
    · exact List.forall_mem_append.2 ⟨fun v hv => .inl (hall _ (hkinds v hv)), hbefore⟩
  | case3 n afterParameter t rest hparameter hand ih =>
    obtain ⟨before, u, after, rfl, rfl, hbefore, hu⟩ := ih h
    simp only [Bool.and_eq_true, beq_iff_eq] at hand
    refine ⟨t :: before, u, after, rfl, by rw [List.length_cons]; omega, ?_, hu⟩
    exact List.forall_mem_cons.2 ⟨.inl (by rw [hand.1.1]; rfl), hbefore⟩
  | case4 => cases h
  | case5 n afterParameter t rest hparameter hand hresult hword ih =>
    obtain ⟨before, u, after, rfl, rfl, hbefore, hu⟩ := ih (map_eq_error h)
    refine ⟨t :: before, u, after, rfl, by rw [List.length_cons]; omega, ?_, hu⟩
    exact List.forall_mem_cons.2 ⟨by simpa [CanMark] using hword, hbefore⟩
  | case6 n afterParameter t rest hparameter hand hresult hword =>
    obtain rfl := Except.error.inj h
    exact ⟨[], t, rest, rfl, rfl, List.forall_mem_nil _, by simpa [CanMark] using hword⟩

theorem firstUnfit_of_markerPhrase (h : markerPhrase openings ts = .error i) : FirstUnfit ts i := by
  obtain ⟨before, t, after, rfl, rfl, hbefore, ht⟩ := splitMarker_eq_error h
  rw [Nat.zero_add]
  refine ⟨⟨t, by simp, ht⟩, fun k hk u hu => hbefore u ?_⟩
  rw [List.getElem?_append_left hk] at hu
  exact List.mem_of_getElem? hu

/-- Marker phrases lose none of their tokens. A phrase fails exactly at its first token that
    cannot be part of a marker. Any other phrase is split into its result, if it ends in one,
    its parameters and the words of its marker: all of them that stand in the phrase, each once
    and in their order. -/
theorem markerPhrase_conserves (openings : List Kind) (ts : List Token)
    (hopenings : ∀ k ∈ openings, k ∈ [.intoWord, .inWord]) :
    (∀ i, markerPhrase openings ts = .error i ↔ FirstUnfit ts i) ∧
      ((∀ t ∈ ts, CanMark t) → ∃ m, markerPhrase openings ts = .ok m ∧ Accounts openings ts 0 m) := by
  have hwords : ∀ k ∈ [Kind.intoWord, .inWord], k.isWordLike := by decide
  have hok : (∃ m, markerPhrase openings ts = .ok m) ↔ ∀ t ∈ ts, CanMark t :=
    splitMarker_ok_iff fun k hk => hwords k (hopenings k hk)
  refine ⟨fun i => ⟨firstUnfit_of_markerPhrase, fun hfirst => ?_⟩, fun hall => ?_⟩
  · rcases hphrase : markerPhrase openings ts with e | m
    · rw [(firstUnfit_of_markerPhrase hphrase).unique hfirst]
    · obtain ⟨t, ht, hunfit⟩ := hfirst.unfit
      exact absurd (hok.1 ⟨m, hphrase⟩ t (List.mem_of_getElem? ht)) hunfit
  · obtain ⟨m, hm⟩ := hok.2 hall
    exact ⟨m, hm, accounts_splitMarker hopenings rfl (scanned_zero openings ts) hm⟩

set_option maxRecDepth 4096 in
/-- Two parameters with an `and` between them, and a result with a comment behind it. -/
theorem markerPhrase_conserves_joined :
    let ts := Token.significant (Token.scan 0 "mix an egg and some milk into the bowl (slowly)")
    let m : MarkerPhrase := ⟨["mix", "(slowly)"],
      [.plain "egg" ⟨4, 10⟩, .plain "milk" ⟨15, 24⟩], some (.plain "bowl" ⟨30, 38⟩)⟩
    (∀ k ∈ [Kind.intoWord, .inWord], k ∈ [Kind.intoWord, .inWord]) ∧ (∀ t ∈ ts, CanMark t) ∧
      markerPhrase [.intoWord, .inWord] ts = .ok m ∧ Accounts [.intoWord, .inWord] ts 0 m := by
  intro ts m
  have hall : ∀ t ∈ ts, CanMark t := by
    have hkinds : (ts.all fun t => t.kind.isWordLike || t.kind == .comment) = true := by
      simp only [ts]
      cbv
    simpa [CanMark] using hkinds
  have hm : markerPhrase [.intoWord, .inWord] ts = .ok m := by
    simp only [ts, m]
    cbv
  obtain ⟨m', hm', haccounts⟩ := (markerPhrase_conserves [.intoWord, .inWord] ts fun _ hk => hk).2 hall
  obtain rfl := Except.ok.inj (hm.symm.trans hm')
  exact ⟨fun _ hk => hk, hall, hm, haccounts⟩

end Prose.Grammar
