import Prose.Proofs.Grammar.Derived
import Prose.Proofs.Grammar.ExpressionComplete

/- Two ways to name an owner. An apostrophe puts a name below the names read so far, in a
   loop; an `of` puts what is read behind it above them, by the same rule with less room. Both
   ways, mixed or not, end in the same path of names, and what is taken as a reference is
   exactly what has a derivation within the room. -/
namespace Prose.Grammar

open Rule

/-- `a hinge of a lid of a box`, with the names from the outermost owner down. -/
inductive Prepositions : List String → List Token → Prop where
  | name {article : Token} {name : String} {ts : List Token} (h : article.kind ∈ articles)
      (hname : Words name ts) : Prepositions [name] (article :: ts)
  | owned {article : Token} {name : String} {ts : List Token} {preposition : Token}
      {path : List String} {us : List Token} (h : article.kind ∈ articles) (hname : Words name ts)
      (hof : preposition.kind = .ofWord) (howner : Prepositions path us) :
      Prepositions (path ++ [name]) (article :: ts ++ preposition :: us)

variable {path : List String} {ts us : List Token} {r : Reference} {room : Nat}

/-! Derivations of both ways. -/

/-- A reference without an `of` is said by its path. -/
theorem ReferenceFrom.possessions (h : ReferenceFrom 0 r ts) : Possessions r.path ts := by
  generalize hroom : 0 = room at h
  induction h with
  | name harticle hname => exact .name harticle hname
  | slot hr hapostrophe harticle hname ih =>
    rw [path_slot]
    exact .slot (ih rfl) hapostrophe harticle hname
  | owned => cases hroom

theorem Possessions.exists_reference (h : Possessions path ts) :
    ∃ r, ReferenceFrom 0 r ts ∧ r.path = path := by
  induction h with
  | name harticle hname => exact ⟨_, .name harticle hname, rfl⟩
  | slot _ hapostrophe harticle hname ih =>
    obtain ⟨r, hr, rfl⟩ := ih
    exact ⟨_, .slot hr hapostrophe harticle hname, path_slot ..⟩

/-- Every `of` takes one level of the room. -/
theorem Prepositions.exists_reference (h : Prepositions path ts) (hroom : path.length ≤ room + 1) :
    ∃ r, ReferenceFrom room r ts ∧ r.path = path := by
  induction h generalizing room with
  | name harticle hname => exact ⟨_, .name harticle hname, rfl⟩
  | owned harticle hname hof howner ih =>
    rw [List.length_append, List.length_singleton] at hroom
    have hpos : 0 < room := by
      cases howner <;> simp at hroom <;> omega
    obtain ⟨less, rfl⟩ := Nat.exists_eq_add_of_le' hpos
    obtain ⟨owner, hfrom, rfl⟩ := ih (Nat.le_of_succ_le_succ hroom)
    exact ⟨_, .owned (.name harticle hname) hof hfrom, path_withRootOwner ..⟩

theorem ReferenceFrom.startsWith (h : ReferenceFrom room r ts) : StartsWith articles ts := by
  induction h with
  | name harticle => exact ⟨_, _, rfl, harticle⟩
  | slot _ _ _ _ ih => exact ih.append _
  | owned _ _ _ ih => exact ih.append _

namespace Phrase

variable {p : Phrase} {s : Progress} {i j k : Nat}

/-! The rule of references. -/

/-- The owner behind an `of` comes above the names that are there. -/
theorem yields_ownership {owner : Rule Reference} {preposition : Token} {above : List String}
    (r : Reference) (htook : p.Took j [preposition] i) (hof : preposition.kind = .ofWord)
    (harticle : p.kindAt i ∈ articles) (howner : owner.Yields i (·.path = above) k) :
    (p.ownership owner r).Yields j (·.path = above ++ r.path) k := by
  have hnext : i = j + 1 := htook.2
  refine .position (.ite_pos ?_ (.bind' (yields_advance htook) fun _ _ => .outcome howner ?_))
  · rw [htook.kindAt_eq, hof, ← hnext, Bool.and_eq_true]
    exact ⟨rfl, List.contains_iff_mem.2 harticle⟩
  · intro o ho
    exact .pure' (by rw [path_withRootOwner, ho])

/-- What has a derivation within the room is read, up to the first token that would go on
    with it. -/
theorem yields_referenceWithin (hp : p.memoize = false) (h : ReferenceFrom room r ts)
    (htook : p.Took i ts j) (hj : p.kindAt j ∉ afterOperand) :
    (p.referenceWithin room).Yields i (·.path = r.path) j := by
  -- on the derivation; only an owner behind an `of` is read by the rule with less room
  induction h generalizing i with
  | name harticle hname => exact yields_possessions hp _ (.name harticle hname) htook hj
  | slot hr hapostrophe harticle hname =>
    rw [path_slot]
    exact yields_possessions hp _ (.slot hr.possessions hapostrophe harticle hname) htook hj
  | @owned room r ts preposition owner us hr hof howner _ ih =>
    obtain ⟨k, hts, hrest⟩ := took_append.1 htook
    obtain ⟨hone, hus⟩ := took_cons.1 hrest
    have hkind : p.kindAt k = .ofWord := hone.kindAt_eq.trans hof
    rw [referenceWithin, keptReference_eq hp, path_withRootOwner]
    refine (yields_ownedName hr.possessions hts (by rw [hkind]; decide) (by rw [hkind]; decide)
      fun r' hr' => ?_).attempt
    rw [← hr']
    exact yields_ownership r' hone hof (howner.startsWith.kindAt hus) (ih hus).attempt

/-- Reading a reference takes the whole phrase and gives a path of names. -/
def Consumes (p : Phrase) (s : Progress) (path : List String) : Prop :=
  ∃ r t, p.reference s = (some r, t) ∧ t.pos = p.size ∧ r.path = path

/-- A phrase is read as a reference, whatever was noted and kept before, if it has a derivation
    within the room, and only then. -/
theorem consumes_iff (hs : p.Reached s) (hstart : s.pos = 0) :
    p.Consumes s path ↔ ∃ r, ReferenceFrom p.room r p.tokens ∧ r.path = path := by
  have hrun := Mirrors.reference.run hs.faithful
  constructor
  · rintro ⟨r, t, hread, hpos, rfl⟩
    rw [hread] at hrun
    obtain ⟨ts, hts, hr⟩ := derives_reference (p := p.fresh) rfl 0 s.plain r t.plain hstart hrun
    have hwhole : p.Took 0 ts p.size := hpos ▸ hts
    rw [← hwhole.between_eq, took_all.between_eq] at hr
    exact ⟨r, hr, rfl⟩
  · rintro ⟨r, hr, rfl⟩
    have hend : p.fresh.kindAt p.size ∉ afterOperand := by
      rw [fresh_kindAt, kindAt_size]
      decide
    obtain ⟨r', t', hread, hpath, hpos⟩ :=
      yields_referenceWithin (p := p.fresh) rfl hr took_all hend s.plain hstart
    obtain ⟨hvalue, hstop⟩ := Prod.mk.inj (hrun.symm.trans hread)
    exact ⟨r', (p.reference s).2, Prod.ext hvalue rfl, (congrArg Progress.pos hstop).trans hpos, hpath⟩

end Phrase

/-- Both ways to name owners are the same. Names with apostrophes between them are read whole
    as a reference with these names, and so are names with `of` between them, as long as there
    are no more levels than the room. Mixed, the names behind the apostrophes come below those
    of the owner behind the `of`, which is any reference that can be read with less room. -/
theorem possessives_agree {p : Phrase} {s : Progress} (hs : p.Reached s) (hstart : s.pos = 0) :
    (∀ path, Possessions path p.tokens → p.Consumes s path) ∧
    (∀ path, Prepositions path p.tokens → path.length - 1 ≤ p.room → p.Consumes s path) ∧
    ∀ names ts preposition path, ∀ q : Phrase, Possessions names ts → preposition.kind = .ofWord →
      p.tokens = ts ++ preposition :: q.tokens → q.room < p.room → q.Consumes {} path →
      p.Consumes s (path ++ names) := by
  refine ⟨fun path h => ?_, fun path h hroom => ?_, ?_⟩
  · obtain ⟨r, hr, hpath⟩ := h.exists_reference
    exact (Phrase.consumes_iff hs hstart).2 ⟨r, hr.mono (Nat.zero_le _), hpath⟩
  · exact (Phrase.consumes_iff hs hstart).2 (h.exists_reference (by omega))
  · intro names ts preposition path q h hof htokens hroom howner
    obtain ⟨r, hr, rfl⟩ := h.exists_reference
    obtain ⟨owner, hfrom, rfl⟩ := (Phrase.consumes_iff .start rfl).1 howner
    refine (Phrase.consumes_iff hs hstart).2 ⟨r.withRootOwner owner, ?_, path_withRootOwner ..⟩
    rw [htokens]
    exact (ReferenceFrom.owned hr hof hfrom).mono hroom

/-- The hinge of the lid of a box: with two apostrophes and no room at all, with two `of` and room
    for both, and with one of each. -/
theorem possessives_agree_hinge :
    let word (k : Kind) (text : String) : Token := ⟨k, text, 0, 0⟩
    let phrase (tokens : List Token) (room : Nat) : Phrase :=
      ⟨tokens, 0, true, room, fun ts => (Stmt.ofUnread ts, false)⟩
    let box := [word .indefiniteArticle "a", word .identifier "box"]
    let lid := [word .indefiniteArticle "a", word .identifier "lid"]
    let hinge := [word .indefiniteArticle "a", word .identifier "hinge"]
    let of := word .ofWord "of"
    let slot (name : String) := [word .possessive "'s", word .identifier name]
    let path := ["box", "lid", "hinge"]
    (phrase (box ++ slot "lid" ++ slot "hinge") 0).Consumes {} path ∧
      (phrase (hinge ++ of :: (lid ++ of :: box)) 2).Consumes {} path ∧
      (phrase (lid ++ slot "hinge" ++ of :: box) 1).Consumes {} path := by
  intro word phrase box lid hinge of slot path
  have harticle : (word .indefiniteArticle "a").kind ∈ articles := List.mem_cons_self
  have hword (name : String) : Words name [word .identifier name] :=
    ⟨List.cons_ne_nil _ _, List.forall_mem_singleton.2 rfl, String.intercalate_singleton⟩
  have hname (name : String) : Possessions [name] [word .indefiniteArticle "a", word .identifier name] :=
    .name harticle (hword name)
  have hslot {names : List String} {ts : List Token} (h : Possessions names ts) (name : String) :
      Possessions (names ++ [name]) (ts ++ slot name) := .slot h rfl (.inl rfl) (hword name)
  have hlid : Prepositions ["box", "lid"] (lid ++ of :: box) :=
    .owned harticle (hword "lid") rfl (.name harticle (hword "box"))
  have hhinge : Prepositions path (hinge ++ of :: (lid ++ of :: box)) :=
    .owned harticle (hword "hinge") rfl hlid
  have hbox : (phrase box 0).Consumes {} ["box"] :=
    (possessives_agree .start rfl).1 ["box"] (hname "box")
  exact ⟨(possessives_agree .start rfl).1 path (hslot (hslot (hname "box") "lid") "hinge"),
    (possessives_agree .start rfl).2.1 path hhinge (Nat.le_refl 2),
    (possessives_agree .start rfl).2.2 ["lid", "hinge"] _ of ["box"] (phrase box 0)
      (hslot (hname "lid") "hinge") rfl rfl Nat.zero_lt_one hbox⟩

end Prose.Grammar
