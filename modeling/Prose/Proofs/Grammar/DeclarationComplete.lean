import Prose.Proofs.Grammar.ExpressionComplete

/- Completeness of declarations. What says a type, a slot or a declaration is read as
   that, up to places; and where another rule is tried before the right one, it gives
   nothing, because it wants some word that is not there. -/
namespace Prose.Grammar

open Rule

/-- A type is an article, which says whether it is one of a collection, and a name. -/
theorem Typed.parts {name : String} {collection : Bool} {ts : List Token}
    (h : Typed name collection ts) : ∃ article words, ts = article :: words ∧
      article.kind ∈ [.indefiniteArticle, .someWord] ∧
      (article.kind == .someWord) = collection ∧ Words name words := by
  cases h with
  | one h hname => exact ⟨_, _, rfl, by rw [h]; decide, by rw [h]; rfl, hname⟩
  | collection h hname => exact ⟨_, _, rfl, by rw [h]; decide, by rw [h]; rfl, hname⟩

theorem Slots.length_le {ss : List Slot} {ts : List Token} (h : Slots ss ts) :
    0 < ss.length ∧ ss.length ≤ ts.length := by
  induction h with
  | last htype =>
    obtain ⟨article, words, rfl, -⟩ := htype.parts
    simp
  | more htype _ _ _ ih =>
    obtain ⟨article, words, rfl, -⟩ := htype.parts
    simp only [List.length_cons, List.length_append]
    omega

theorem startsWith_slots {ss : List Slot} {ts : List Token} (h : Slots ss ts) :
    StartsWith [.indefiniteArticle, .someWord] ts := by
  cases h with
  | last htype =>
    obtain ⟨article, words, rfl, hkind, -⟩ := htype.parts
    exact ⟨article, _, rfl, hkind⟩
  | more htype =>
    obtain ⟨article, words, rfl, hkind, -⟩ := htype.parts
    exact ⟨article, _, rfl, hkind⟩

namespace Phrase

variable {α : Type} {p : Phrase} {i j : Nat} {ts us : List Token}

/-! What declarations are made of. -/

theorem yields_typeName {name : String} {collection : Bool} (h : Typed name collection ts)
    (htook : p.Took i ts j) (hj : p.kindAt j ≠ .identifier) :
    p.typeName.Yields i (·.unplaced = ⟨name, collection, .zero⟩) j := by
  obtain ⟨article, words, rfl, hkind, rfl, hname⟩ := h.parts
  obtain ⟨hone, hwords⟩ := took_cons.1 htook
  refine .position (.bind' (yields_eatAny hone hkind) ?_)
  intro read hread
  obtain rfl := hread
  refine .bind' (yields_longName hwords hname hj) ?_
  intro read hread
  obtain rfl := hread
  exact .bind' (yields_spanFrom i) fun _ _ => .pure' rfl

/-- What can be said as an expression is read. -/
theorem yields_sayable {e : Expr} (hp : p.memoize = false) (h : Shown e ts) (he : e.Sayable)
    (htook : p.Took i ts j) (hj : p.kindAt j ∉ afterExpression) :
    p.expression.Yields i (·.unplaced = e.unplaced) j :=
  yields_expression hp (legible_of_shown h he.1) he.2 htook hj

theorem startsWith_shown {e : Expr} (h : Shown e ts) (he : e.Sayable) : StartsWith operandStarts ts :=
  startsWith_expression (legible_of_shown h he.1)

theorem yields_maybeTo {particle : List Token} (h : MaybeTo particle) (htook : p.Took i particle j)
    (hj : p.kindAt j ∈ operandStarts) : (p.skipAny [.toWord]).Yields i (fun _ => True) j := by
  rcases h with rfl | h
  · obtain rfl : j = i := htook.2
    refine yields_skipNone fun hmem => ?_
    rw [List.mem_singleton.1 hmem] at hj
    exact absurd hj (by decide)
  · obtain ⟨t, rfl, ht⟩ := List.map_eq_singleton_iff.1 h
    exact yields_skipAny htook (by rw [ht]; decide)

theorem yields_initializer {equal : Token} {particle : List Token} {e : Expr} (hp : p.memoize = false)
    (hequal : equal.kind = .equalWord) (hto : MaybeTo particle) (h : Shown e ts) (he : e.Sayable)
    (htook : p.Took i (equal :: (particle ++ ts)) j) (hj : p.kindAt j = .stop) :
    p.initializer.Yields i (·.unplaced = e.unplaced) j := by
  obtain ⟨hone, hrest⟩ := took_cons.1 htook
  obtain ⟨k, hto', hts⟩ := took_append.1 hrest
  refine .bind' (yields_eat hone hequal) fun _ _ => ?_
  refine .bind' (yields_maybeTo hto hto' ((startsWith_shown h he).kindAt hts)) fun _ _ => ?_
  exact yields_sayable hp h he hts (by rw [hj]; decide)

/-! Variables, constants and units. -/

/-- A declaration begins with an article and a name, which ends at the verb. -/
theorem yields_opening {article verb : Token} {text : String} {name : List Token} {noun : Kind}
    (harticle : article.kind = noun) (hname : Words text name) (hverb : verb.kind ≠ .identifier)
    (htook : p.Took i (article :: (name ++ verb :: ts)) j) :
    ∃ k, (p.eat noun).Yields i (· = article) (i + 1) ∧ p.longName.Yields (i + 1) (·.1 = text) k ∧
      p.Took k [verb] (k + 1) ∧ p.Took (k + 1) ts j := by
  obtain ⟨hone, hrest⟩ := took_cons.1 htook
  obtain ⟨k, hwords, hrest⟩ := took_append.1 hrest
  obtain ⟨htwo, hts⟩ := took_cons.1 hrest
  have hk : p.kindAt k ≠ .identifier := by
    rw [htwo.kindAt_eq]
    exact hverb
  exact ⟨k, yields_eat hone harticle, yields_longName hwords hname hk, htwo, hts⟩

theorem yields_variable {d : VariableDeclaration} {span : Span} {the verb : Token}
    {name type value : List Token} (hp : p.memoize = false) (hthe : the.kind = .definiteArticle)
    (hname : Words d.name name) (hverb : verb.kind ∈ [.isWord, .areWord])
    (htype : Typed d.type.name d.type.collection type) (hvalue : Initialized d.initializer value)
    (hd : ∀ e ∈ d.initializer, e.Sayable)
    (htook : p.Took i (the :: (name ++ verb :: (type ++ value))) j) (hj : p.kindAt j = .stop) :
    p.variableStatement.Yields i
      (·.unplaced = (Stmt.variableDeclaration d span).unplaced) j := by
  have hname' : verb.kind ≠ .identifier := by
    intro h
    rw [h] at hverb
    exact absurd hverb (by decide)
  obtain ⟨k, heat, hread, htwo, hrest⟩ := yields_opening hthe hname hname' htook
  obtain ⟨l, htype', hvalue'⟩ := took_append.1 hrest
  refine .bind' (P := fun a => a.unplaced = d.unplaced) (j := j) ?_ fun a ha => .pure' ?_
  · refine .position (.bind' heat fun _ _ => ?_)
    refine .bind' hread fun words hwords' => ?_
    refine .bind' (yields_eatAny htwo hverb) fun _ _ => ?_
    cases hd' : d.initializer with
    | none =>
      rw [hd'] at hvalue
      cases hvalue
      -- the initializer is attempted, and the sentence is over
      obtain rfl : j = l := hvalue'.2
      refine .bind' (yields_typeName htype htype' (by rw [hj]; decide)) fun t ht => ?_
      have hno : (attempt p.initializer).Refuses j :=
        Gives.attempt (refuses_eat (by rw [hj]; decide)).bind'
      refine .outcome_refused hno (.bind' (yields_spanFrom i) fun _ _ => .pure' ?_)
      simp only [VariableDeclaration.unplaced, hwords', ht, hd']
      rfl
    | some e =>
      have he : e.Sayable := hd e (by rw [hd']; rfl)
      rw [hd'] at hvalue
      obtain _ | ⟨hequal, hto, hshown⟩ := hvalue
      have hl : p.kindAt l = .equalWord := by
        rw [(took_cons.1 hvalue').1.kindAt_eq, hequal]
      refine .bind' (yields_typeName htype htype' (by rw [hl]; decide)) fun t ht => ?_
      have hyields := yields_initializer hp hequal hto hshown he hvalue' hj
      refine .outcome hyields.attempt fun a ha => .bind' (yields_spanFrom i) fun _ _ => .pure' ?_
      simp only [VariableDeclaration.unplaced, hwords', ht, hd', Option.map_some, ha]
      rfl
  · simp only [Stmt.unplaced, ha]

/-- A declaration in which no type follows is no variable's. -/
theorem refuses_variable {the verb : Token} {text : String} {name : List Token}
    (hthe : the.kind = .definiteArticle) (hname : Words text name) (hverb : verb.kind = .isWord)
    (hts : StartsWith [.intLiteral, .stringLiteral, .byteArrayLiteral, .ratioLiteral, .nullWord] ts)
    (htook : p.Took i (the :: (name ++ verb :: ts)) j) : p.variableStatement.Refuses i := by
  obtain ⟨k, heat, hread, htwo, hts'⟩ := yields_opening hthe hname (by rw [hverb]; decide) htook
  -- a literal stands where the type would begin
  have hno : p.kindAt (k + 1) ∉ [.indefiniteArticle, .someWord] := by
    have hkinds : ∀ kind ∈ [Kind.intLiteral, .stringLiteral, .byteArrayLiteral, .ratioLiteral,
      .nullWord], kind ∉ [.indefiniteArticle, .someWord] := by decide
    exact hkinds _ (hts.kindAt hts')
  refine Gives.bind' (P := fun _ _ => False) (Gives.position ?_) fun _ _ h => h.elim
  refine heat.refuses fun _ _ => ?_
  refine hread.refuses fun _ _ => ?_
  refine (yields_eatAny htwo (by rw [hverb]; decide)).refuses fun _ _ => ?_
  exact Refuses.bind' (Gives.position (refuses_eatAny hno).bind')

theorem baseUnit_append (name : String) : baseUnit (name ++ "s") = name := by
  have htext : (name ++ "s").toList.reverse = 's' :: name.toList.reverse := by
    rw [String.toList_append, List.reverse_append]
    rfl
  simp only [baseUnit, htext, List.reverse_reverse, String.ofList_toList]

/-- A name that nothing owns is plain. -/
theorem plain_unplaced {r : Reference} {name : String} {span : Span} (h : r.owners = [])
    (hname : name = r.name) : (Reference.plain name span).unplaced = r.unplaced := by
  simp only [Reference.plain, Reference.unplaced, h, hname, List.map_nil]

theorem yields_unit {r base : Reference} {n : Int} {inner span : Span}
    {the verb amount unit : Token} {name : List Token} (hthe : the.kind = .definiteArticle)
    (hname : Words r.name name) (hverb : verb.kind = .isWord) (hkind : amount.kind = .intLiteral)
    (hn : Text.readInteger amount.text = some n) (hunit : unit.kind = .identifier)
    (hbase : unit.text = base.name ++ "s") (hr : r.owners = []) (hbase' : base.owners = [])
    (htook : p.Took i (the :: (name ++ [verb, amount, unit])) j) :
    p.unitAlias.Yields i
      (·.unplaced = (Stmt.unitAlias r (.int n inner) base span).unplaced) j := by
  obtain ⟨k, heat, hread, htwo, hrest⟩ := yields_opening hthe hname (by rw [hverb]; decide) htook
  obtain ⟨hthree, hfour⟩ := took_cons.1 hrest
  refine .position (.bind' heat fun _ _ => ?_)
  refine .bind' hread fun words hwords' => ?_
  refine .bind' (yields_eat htwo hverb) fun _ _ => .bind' (yields_eat hthree hkind) ?_
  intro read hread
  obtain rfl := hread
  simp only [hn]
  refine .bind' (yields_eat hfour hunit) ?_
  intro read hread
  obtain rfl := hread
  refine .bind' (yields_spanFrom i) fun _ _ => .pure' ?_
  simp only [Stmt.unplaced, Expr.unplaced, plain_unplaced hr hwords',
    plain_unplaced hbase' ((congrArg baseUnit hbase).trans (baseUnit_append _))]

/-- A constant is no unit: no word follows a whole number that is one. -/
theorem refuses_unit {the verb : Token} {text : String} {name : List Token} {e : Expr}
    (hthe : the.kind = .definiteArticle) (hname : Words text name) (hverb : verb.kind = .isWord)
    (he : LiteralRead e ts) (htook : p.Took i (the :: (name ++ verb :: ts)) j)
    (hj : p.kindAt j = .stop) : p.unitAlias.Refuses i := by
  obtain ⟨k, heat, hread, htwo, hts⟩ := yields_opening hthe hname (by rw [hverb]; decide) htook
  refine Gives.position (heat.refuses fun _ _ => ?_)
  refine hread.refuses fun _ _ => ?_
  refine (yields_eat htwo hverb).refuses fun _ _ => ?_
  have hother {t : Token} (ht : p.Took (k + 1) [t] j) (hkind : t.kind ≠ .intLiteral) :
      (p.eat .intLiteral).Refuses (k + 1) := refuses_eat (by rwa [ht.kindAt_eq])
  cases he with
  | int h hn =>
    refine (yields_eat hts h).refuses ?_
    intro read hread
    obtain rfl := hread
    simp only [hn]
    exact (refuses_eat (by rw [hj]; decide)).bind'
  | inches h hn hu =>
    obtain ⟨hthree, hfour⟩ := took_cons.1 hts
    refine (yields_eat hthree h).refuses ?_
    intro read hread
    obtain rfl := hread
    simp only [hn]
    exact (refuses_eat (by rw [hfour.kindAt_eq, hu]; decide)).bind'
  | text h => exact (hother hts (by rw [h]; decide)).bind'
  | bytes h => exact (hother hts (by rw [h]; decide)).bind'
  | ratio h => exact (hother hts (by rw [h]; decide)).bind'
  | null h => exact (hother hts (by rw [h]; decide)).bind'

theorem yields_constant {r : Reference} {e : Expr} {span : Span} {the verb : Token}
    {name : List Token} (hthe : the.kind = .definiteArticle) (hname : Words r.name name)
    (hverb : verb.kind = .isWord) (he : LiteralRead e ts) (hr : r.owners = [])
    (htook : p.Took i (the :: (name ++ verb :: ts)) j) (hj : p.kindAt j = .stop) :
    p.constantDeclaration.Yields i
      (·.unplaced = (Stmt.constantDeclaration r e span).unplaced) j := by
  obtain ⟨k, heat, hread, htwo, hts⟩ := yields_opening hthe hname (by rw [hverb]; decide) htook
  refine .position (.bind' heat fun _ _ => ?_)
  refine .bind' hread fun words hwords' => ?_
  refine .bind' (yields_eat htwo hverb) fun _ _ => ?_
  refine .bind' (yields_literal he hts (by rw [hj]; decide)) fun a ha => ?_
  refine .bind' (yields_spanFrom i) fun _ _ => .pure' ?_
  simp only [Stmt.unplaced, plain_unplaced hr hwords', ha]

/-! Pointers. -/

theorem yields_pointer {r : Reference} {base : TypeName} {span : Span}
    {article verb one pointer particle : Token} {name type : List Token}
    (harticle : article.kind = .indefiniteArticle) (hname : Words r.name name)
    (hverb : verb.kind = .isWord) (hone : one.kind = .indefiniteArticle)
    (hpointer : isPointerWord pointer = true) (hto : particle.kind = .toWord)
    (htype : Typed base.name base.collection type) (hr : r.owners = [])
    (htook : p.Took i (article :: (name ++ verb :: one :: pointer :: particle :: type)) j)
    (hj : p.kindAt j = .stop) :
    p.pointerDeclaration.Yields i
      (·.unplaced = (Stmt.pointerDeclaration r base span).unplaced) j := by
  obtain ⟨k, heat, hread, hsecond, hrest⟩ :=
    yields_opening harticle hname (by rw [hverb]; decide) htook
  obtain ⟨hthird, hrest⟩ := took_cons.1 hrest
  obtain ⟨hfourth, hrest⟩ := took_cons.1 hrest
  obtain ⟨hfifth, htype'⟩ := took_cons.1 hrest
  refine .position (.bind' heat fun _ _ => ?_)
  refine .bind' hread fun words hwords' => ?_
  refine .bind' (yields_spanFrom i) fun _ _ => .bind' (yields_eat hsecond hverb) fun _ _ => ?_
  refine .bind' (yields_eat hthird hone) fun _ _ => .position (.ite_pos ?_ ?_)
  · rw [hfourth.tokenAt_eq]
    exact hpointer
  · refine .bind' (yields_advance hfourth) fun _ _ => .bind' (yields_eat hfifth hto) fun _ _ => ?_
    refine .bind' (yields_typeName htype htype' (by rw [hj]; decide)) fun t ht => ?_
    refine .bind' (yields_spanFrom i) fun _ _ => .pure' ?_
    simp only [Stmt.unplaced, plain_unplaced hr hwords', ht]
    rfl

/-- Without `is` there is no pointer. -/
theorem refuses_pointer_has {article verb : Token} {text : String} {name : List Token}
    (harticle : article.kind = .indefiniteArticle) (hname : Words text name)
    (hverb : verb.kind = .hasWord) (htook : p.Took i (article :: (name ++ verb :: ts)) j) :
    p.pointerDeclaration.Refuses i := by
  obtain ⟨k, heat, hread, hsecond, -⟩ := yields_opening harticle hname (by rw [hverb]; decide) htook
  have hk : p.kindAt k = .hasWord := hsecond.kindAt_eq.trans hverb
  refine Gives.position (heat.refuses fun _ _ => ?_)
  refine hread.refuses fun _ _ => ?_
  refine (yields_spanFrom i).refuses fun _ _ => ?_
  exact (refuses_eat (by rw [hk]; decide)).bind'

/-- Nor is there one in a type behind which no `to` stands, even if its name begins with
    the word. -/
theorem refuses_pointer_is {article verb : Token} {text : String} {name type : List Token}
    {base : String} {collection : Bool} {k : Nat} (harticle : article.kind = .indefiniteArticle)
    (hname : Words text name) (hverb : verb.kind = .isWord) (htype : Typed base collection type)
    (htook : p.Took i (article :: (name ++ verb :: type)) k) (hk : p.kindAt k ≠ .toWord) :
    p.pointerDeclaration.Refuses i := by
  obtain ⟨l, heat, hread, hsecond, hrest⟩ :=
    yields_opening harticle hname (by rw [hverb]; decide) htook
  refine Gives.position (heat.refuses fun _ _ => ?_)
  refine hread.refuses fun _ _ => ?_
  refine (yields_spanFrom i).refuses fun _ _ => (yields_eat hsecond hverb).refuses fun _ _ => ?_
  cases htype with
  | collection hsome =>
    refine (refuses_eat ?_).bind'
    rw [(took_cons.1 hrest).1.kindAt_eq, hsome]
    decide
  | one hone hbase =>
    obtain ⟨hthird, hbase'⟩ := took_cons.1 hrest
    refine (yields_eat hthird hone).refuses fun _ _ => Gives.position ?_
    refine .ite' (fun _ => ?_) fun _ => .fail _
    obtain ⟨hne, hkinds, -⟩ := hbase
    obtain ⟨word, words, rfl⟩ := List.exists_cons_of_ne_nil hne
    obtain ⟨hword, hwords'⟩ := took_cons.1 hbase'
    -- behind the first word of the name stands another word of it, or what follows the type
    have hnext : p.kindAt (l + 1 + 1 + 1) ≠ .toWord := by
      cases words with
      | nil =>
        obtain rfl : k = l + 1 + 1 + 1 := hwords'.2
        exact hk
      | cons next words =>
        rw [(took_cons.1 hwords').1.kindAt_eq, hkinds next (by simp)]
        decide
    exact (yields_advance hword).refuses fun _ _ => (refuses_eat hnext).bind'

/-- Nor in a type with slots, where `with` stands in place of `to`. -/
theorem refuses_pointer_with {article verb preposition : Token} {text : String}
    {name type : List Token} {base : String} {collection : Bool}
    (harticle : article.kind = .indefiniteArticle) (hname : Words text name)
    (hverb : verb.kind = .isWord) (htype : Typed base collection type)
    (hwith : preposition.kind = .withWord)
    (htook : p.Took i (article :: (name ++ verb :: (type ++ preposition :: ts))) j) :
    p.pointerDeclaration.Refuses i := by
  -- the rule has refused before it comes to the slots, so they are split off
  have hsplit : article :: (name ++ verb :: (type ++ preposition :: ts)) =
      article :: (name ++ verb :: type) ++ preposition :: ts := by
    simp only [List.cons_append, List.append_assoc]
  obtain ⟨k, htype', hrest⟩ := took_append.1 (hsplit ▸ htook)
  have hk : p.kindAt k = .withWord := (took_cons.1 hrest).1.kindAt_eq.trans hwith
  exact refuses_pointer_is harticle hname hverb htype htype' (by rw [hk]; decide)

/-! Slots and shapes. -/

theorem yields_slotAlias {name : String} (h : Aliased (some name) ts) (htook : p.Took i ts j)
    (hj : p.kindAt j ≠ .identifier) : p.slotAlias.Yields i (· = name) j := by
  cases h with
  | is hverb harticle hname =>
    obtain ⟨hone, hrest⟩ := took_cons.1 htook
    obtain ⟨k, harticle', hwords⟩ := took_append.1 hrest
    have hi : p.kindAt i = .isWord := hone.kindAt_eq.trans hverb
    refine yields_here ?_
    simp only [hi]
    refine .bind' (yields_advance hone) fun _ _ => ?_
    refine .bind' (yields_skipArticle harticle harticle' ?_) fun _ _ => ?_
    · exact List.mem_singleton.1 ((startsWith_words hname).kindAt hwords)
    · exact .bind' (yields_longName hwords hname hj) fun _ hwords' => .pure' hwords'
  | «at» hat harticle hname =>
    obtain ⟨hone, hrest⟩ := took_cons.1 htook
    obtain ⟨htwo, hwords⟩ := took_cons.1 hrest
    have hi : p.kindAt i = .atWord := hone.kindAt_eq.trans hat
    refine yields_here ?_
    simp only [hi]
    refine .bind' (yields_advance hone) fun _ _ => .bind' (yields_eat htwo harticle) fun _ _ => ?_
    exact .bind' (yields_longName hwords hname hj) fun _ hwords' => .pure' hwords'

theorem refuses_slotAlias (hi : p.kindAt i ∈ [.comma, .andWord, .stop]) : p.slotAlias.Refuses i := by
  intro s a t hs0 h
  subst hs0
  have hhere : p.here s = (some (p.kindAt s.pos), s) := rfl
  rw [slotAlias, bind_some hhere] at h
  generalize p.kindAt s.pos = k at hi h
  simp only [List.mem_cons, List.not_mem_nil, or_false] at hi
  rcases hi with rfl | rfl | rfl <;> cases (Prod.mk.inj h).1

/-- A slot is read up to what separates it from the next one. -/
theorem yields_slot {s : Slot} (htype : Typed s.name s.collection ts) (hother : Aliased s.aliasFor us)
    (htook : p.Took i (ts ++ us) j) (hj : p.kindAt j ∈ [.comma, .andWord, .stop]) :
    p.slot.Yields i (·.unplaced = s.unplaced) j := by
  obtain ⟨k, hts, hus⟩ := took_append.1 htook
  obtain ⟨article, words, rfl, hkind, hcollection, hname⟩ := htype.parts
  obtain ⟨hone, hwords⟩ := took_cons.1 hts
  have hend : p.kindAt j ≠ .identifier := fun h => by
    rw [h] at hj
    exact absurd hj (by decide)
  refine .position (.bind' (yields_eatAny hone hkind) ?_)
  intro read hread
  obtain rfl := hread
  cases hs : s.aliasFor with
  | none =>
    rw [hs] at hother
    cases hother
    obtain rfl : j = k := hus.2
    refine .bind' (yields_longName hwords hname hend) fun read hread => ?_
    refine .outcome_refused (Gives.attempt (refuses_slotAlias hj)) ?_
    refine .bind' (yields_spanFrom i) fun _ _ => .pure' ?_
    simp only [Slot.unplaced, hread, hcollection, hs]
  | some other =>
    rw [hs] at hother
    have hk : p.kindAt k ≠ .identifier := by
      cases hother with
      | is h => rw [(took_cons.1 hus).1.kindAt_eq, h]; decide
      | «at» h => rw [(took_cons.1 hus).1.kindAt_eq, h]; decide
    refine .bind' (yields_longName hwords hname hk) fun read hread => ?_
    refine .outcome (yields_slotAlias hother hus hend).attempt ?_
    intro name hname
    obtain rfl := hname
    refine .bind' (yields_spanFrom i) fun _ _ => .pure' ?_
    simp only [Slot.unplaced, hread, hcollection, hs]

/-- What separates two slots is passed. -/
theorem yields_separator {separator : List Token} {f : Unit → Rule α} {P : α → Prop} {k : Nat}
    (h : separator.map Token.kind ∈ [[.comma], [.andWord], [.comma, .andWord]])
    (htook : p.Took i separator k) (hk : p.kindAt k ∈ [.indefiniteArticle, .someWord])
    (hf : (f ()).Yields k P j) :
    (p.skipAny [.comma] >>= fun _ => p.skipAny [.andWord] >>= f).Yields i P j := by
  have hkinds : ∀ kind ∈ [Kind.indefiniteArticle, .someWord], kind ∉ [Kind.andWord] := by decide
  simp only [List.mem_cons, List.not_mem_nil, or_false] at h
  rcases h with h | h | h
  · obtain ⟨t, rfl, ht⟩ := List.map_eq_singleton_iff.1 h
    refine .bind' (yields_skipAny htook (by rw [ht]; decide)) fun _ _ => ?_
    exact .bind' (yields_skipNone (hkinds _ hk)) fun _ _ => hf
  · obtain ⟨t, rfl, ht⟩ := List.map_eq_singleton_iff.1 h
    refine .bind' (yields_skipNone (by rw [htook.kindAt_eq, ht]; decide)) fun _ _ => ?_
    exact .bind' (yields_skipAny htook (by rw [ht]; decide)) fun _ _ => hf
  · obtain ⟨t, rest, rfl, ht, hrest⟩ := List.map_eq_cons_iff.1 h
    obtain ⟨u, rfl, hu⟩ := List.map_eq_singleton_iff.1 hrest
    obtain ⟨hone, htwo⟩ := took_cons.1 htook
    refine .bind' (yields_skipAny hone (by rw [ht]; decide)) fun _ _ => ?_
    exact .bind' (yields_skipAny htwo (by rw [hu]; decide)) fun _ _ => hf

theorem startsWith_separator {separator : List Token}
    (h : separator.map Token.kind ∈ [[.comma], [.andWord], [.comma, .andWord]]) :
    StartsWith [.comma, .andWord, .stop] separator := by
  simp only [List.mem_cons, List.not_mem_nil, or_false] at h
  cases separator with
  | nil => simp at h
  | cons t rest =>
    refine ⟨t, rest, rfl, ?_⟩
    rw [List.map_cons] at h
    rcases h with h | h | h <;> rw [List.head_eq_of_cons_eq h] <;> decide

theorem yields_noMoreSlots (fuel : Nat) (hj : p.kindAt j = .stop) :
    (p.moreSlots fuel).Yields j (· = []) j := by
  cases fuel with
  | zero => exact .pure' rfl
  | succ fuel =>
    refine .position (.bind' (yields_skipNone (by rw [hj]; decide)) fun _ _ => ?_)
    refine .bind' (yields_skipNone (by rw [hj]; decide)) fun _ _ => ?_
    exact .position (.ite_pos rfl (.pure' rfl))

/-- Slots are read until nothing separates them from another one. -/
theorem yields_slots {ss : List Slot} {fuel : Nat} (h : Slots ss ts) (hfuel : ss.length ≤ fuel + 1)
    (htook : p.Took i ts j) (hj : p.kindAt j = .stop) :
    (p.slot >>= fun first => p.moreSlots fuel >>= fun later => pure (first :: later)).Yields i
      (fun read => read.map Slot.unplaced = ss.map Slot.unplaced) j := by
  -- on how the slots are said; each of them but the first takes one step of the loop
  induction h generalizing i fuel with
  | last htype hother =>
    refine .bind' (yields_slot htype hother htook (by rw [hj]; decide)) fun a ha => ?_
    refine .bind' (yields_noMoreSlots fuel hj) ?_
    intro read hread
    obtain rfl := hread
    exact .pure' (by simp only [List.map_cons, List.map_nil, ha])
  | @more s ss ts us separator vs htype hother hseparator hlater ih =>
    obtain ⟨k, hts, hrest⟩ := took_append.1 htook
    obtain ⟨l, hus, hrest⟩ := took_append.1 hrest
    obtain ⟨m, hsep, hvs⟩ := took_append.1 hrest
    have hstart := startsWith_separator hseparator
    have hlt := (hsep.lt_and_le hstart.ne_nil).1
    have hpos := hlater.length_le.1
    cases fuel with
    | zero => simp only [List.length_cons] at hfuel; omega
    | succ fuel =>
      refine .bind' (yields_slot htype hother (hts.append hus) (hstart.kindAt hsep)) fun a ha => ?_
      refine .bind' (P := fun read => read.map Slot.unplaced = ss.map Slot.unplaced) (j := j) ?_
        fun later hl => .pure' (by simp only [List.map_cons, ha, hl])
      refine .position (yields_separator hseparator hsep ((startsWith_slots hlater).kindAt hvs) ?_)
      refine .position (.ite_neg (by omega) (.outcome_of_bind (ih ?_ hvs)))
      simp only [List.length_cons] at hfuel
      omega

theorem yields_slotList {ss : List Slot} (h : Slots ss ts) (htook : p.Took i ts j)
    (hj : p.kindAt j = .stop) :
    p.slotList.Yields i (fun read => read.map Slot.unplaced = ss.map Slot.unplaced) j := by
  have hlength := h.length_le.2
  have hsize := (htook.lt_and_le (startsWith_slots h).ne_nil).2
  exact yields_slots h (by have := htook.2; omega) htook hj

theorem yields_shape {name : String} {base : TypeName} {inner span : Span} {article verb : Token}
    {words type : List Token} (harticle : article.kind = .indefiniteArticle)
    (hname : Words name words) (hverb : verb.kind = .isWord)
    (htype : Typed base.name base.collection type)
    (htook : p.Took i (article :: (words ++ verb :: type)) j) (hj : p.kindAt j = .stop) :
    p.shapeDeclaration.Yields i
      (·.unplaced = (Stmt.shapeDeclaration ⟨name, some base, none, inner⟩ span).unplaced) j := by
  obtain ⟨k, heat, hread, hsecond, htype'⟩ :=
    yields_opening harticle hname (by rw [hverb]; decide) htook
  refine .position (.bind' heat fun _ _ => ?_)
  refine .bind' hread fun words hwords => ?_
  refine .bind' (yields_eat hsecond hverb) fun _ _ => ?_
  refine .bind' (yields_typeName htype htype' (by rw [hj]; decide)) fun t ht => yields_at? ?_
  refine .ite_neg (by rw [hj]; decide) (.bind' (yields_spanFrom i) fun _ _ => .pure' ?_)
  simp only [Stmt.unplaced, Shape.unplaced, hwords, Option.map_some, Option.map_none, ht]
  rfl

theorem yields_shapeWith {name : String} {base : TypeName} {slots : List Slot} {inner span : Span}
    {article verb preposition : Token} {words type : List Token}
    (harticle : article.kind = .indefiniteArticle) (hname : Words name words)
    (hverb : verb.kind = .isWord) (htype : Typed base.name base.collection type)
    (hwith : preposition.kind = .withWord) (hslots : Slots slots ts)
    (htook : p.Took i (article :: (words ++ verb :: (type ++ preposition :: ts))) j)
    (hj : p.kindAt j = .stop) :
    p.shapeDeclaration.Yields i
      (·.unplaced = (Stmt.shapeDeclaration ⟨name, some base, some slots, inner⟩ span).unplaced) j := by
  obtain ⟨k, heat, hread, hsecond, hrest⟩ :=
    yields_opening harticle hname (by rw [hverb]; decide) htook
  obtain ⟨l, htype', hrest⟩ := took_append.1 hrest
  obtain ⟨hthird, hts⟩ := took_cons.1 hrest
  have hl : p.kindAt l = .withWord := hthird.kindAt_eq.trans hwith
  refine .position (.bind' heat fun _ _ => ?_)
  refine .bind' hread fun words hwords => ?_
  refine .bind' (yields_eat hsecond hverb) fun _ _ => ?_
  refine .bind' (yields_typeName htype htype' (by rw [hl]; decide)) fun t ht => yields_at? ?_
  refine .ite_pos (by rw [hl]; rfl) (.bind' (yields_advance hthird) fun _ _ => ?_)
  refine .bind' (yields_slotList hslots hts hj) fun read' hread' => ?_
  refine .bind' (yields_spanFrom i) fun _ _ => .pure' ?_
  simp only [Stmt.unplaced, Shape.unplaced, hwords, Option.map_some, ht, hread']
  rfl

/-- Without `is` there is no shape with a base. -/
theorem refuses_shape {article verb : Token} {text : String} {name : List Token}
    (harticle : article.kind = .indefiniteArticle) (hname : Words text name)
    (hverb : verb.kind = .hasWord) (htook : p.Took i (article :: (name ++ verb :: ts)) j) :
    p.shapeDeclaration.Refuses i := by
  obtain ⟨k, heat, hread, hsecond, -⟩ := yields_opening harticle hname (by rw [hverb]; decide) htook
  have hk : p.kindAt k = .hasWord := hsecond.kindAt_eq.trans hverb
  refine Gives.position (heat.refuses fun _ _ => ?_)
  refine hread.refuses fun _ _ => ?_
  exact (refuses_eat (by rw [hk]; decide)).bind'

theorem yields_shapeOf {name : String} {slots : List Slot} {inner span : Span}
    {article verb : Token} {words : List Token} (harticle : article.kind = .indefiniteArticle)
    (hname : Words name words) (hverb : verb.kind = .hasWord) (hslots : Slots slots ts)
    (htook : p.Took i (article :: (words ++ verb :: ts)) j) (hj : p.kindAt j = .stop) :
    p.shapeOfSlots.Yields i
      (·.unplaced = (Stmt.shapeDeclaration ⟨name, none, some slots, inner⟩ span).unplaced) j := by
  obtain ⟨k, heat, hread, hsecond, hts⟩ :=
    yields_opening harticle hname (by rw [hverb]; decide) htook
  refine .position (.bind' heat fun _ _ => ?_)
  refine .bind' hread fun words hwords => ?_
  refine .bind' (yields_eat hsecond hverb) fun _ _ => ?_
  refine .bind' (yields_slotList hslots hts hj) fun read' hread' => ?_
  refine .bind' (yields_spanFrom i) fun _ _ => .pure' ?_
  simp only [Stmt.unplaced, Shape.unplaced, hwords, Option.map_some, Option.map_none, hread']

end Phrase

end Prose.Grammar
