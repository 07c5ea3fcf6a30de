import Prose.Proofs.Grammar.Followed

/- The discipline of the cursor. Whatever rules a reader has run before, each further one comes to
   an end without looking at a token that is not there; it leaves the tokens and the depth as they
   were and the cursor inside of the tokens, and has moved the cursor on if it gives something.
   Sentences are read by such rules, and their branches by readers of their own, so no reading of a
   sentence looks at a token that is not there. -/
namespace Prose.Grammar

variable {α : Type} {p : Phrase} {base lo : Nat} {s : Progress} {w : Guarded α} {x : Rule α}

/-- The reference behind an `of`, one level deeper. -/
def Phrase.owner (p : Phrase) : Rule Reference :=
  match p.room with
  | 0 => Rule.fail "shallower nesting"
  | room + 1 => Rule.attempt (p.referenceWithin room)

/-- The rules of the grammar, each guarded and not, for a phrase. -/
inductive GrammarRule (p : Phrase) : {α : Type} → Guarded α → Rule α → Prop where
  | eat {k : Kind} (hk : k ≠ .stop) : GrammarRule p (Guarded.eat k) (p.eat k)
  | eatAny {kinds : List Kind} (hk : .stop ∉ kinds) (what : String) :
      GrammarRule p (Guarded.eatAny kinds what) (p.eatAny kinds what)
  | longName : GrammarRule p Guarded.longName p.longName
  | plainReference : GrammarRule p Guarded.plainReference p.plainReference
  | typeName : GrammarRule p Guarded.typeName p.typeName
  | reference : GrammarRule p Guarded.reference p.reference
  | owner : GrammarRule p (Guarded.nested Guarded.reference) p.owner
  | ownedName : GrammarRule p (Guarded.ownedName (Guarded.nested Guarded.reference))
      (p.ownedName p.owner)
  | literal : GrammarRule p Guarded.literal p.literal
  | literalOrSlot : GrammarRule p Guarded.literalOrSlot p.literalOrSlot
  | primary : GrammarRule p Guarded.primary p.primary
  | term : GrammarRule p Guarded.term p.term
  | arithmetic : GrammarRule p Guarded.arithmetic p.arithmetic
  | comparison : GrammarRule p Guarded.comparison p.comparison
  | compared : GrammarRule p Guarded.compared p.compared
  | expression : GrammarRule p Guarded.expression p.expression
  | arithmeticPhrase (inPlace : Bool) :
      GrammarRule p (Guarded.arithmeticPhrase inPlace) (p.arithmeticPhrase inPlace)
  | assignment : GrammarRule p Guarded.assignment p.assignment
  | initializer : GrammarRule p Guarded.initializer p.initializer
  | variableDeclaration : GrammarRule p Guarded.variableDeclaration p.variableDeclaration
  | unitAlias : GrammarRule p Guarded.unitAlias p.unitAlias
  | constantDeclaration : GrammarRule p Guarded.constantDeclaration p.constantDeclaration
  | pointerDeclaration : GrammarRule p Guarded.pointerDeclaration p.pointerDeclaration
  | slotAlias : GrammarRule p Guarded.slotAlias p.slotAlias
  | slot : GrammarRule p Guarded.slot p.slot
  | slotList : GrammarRule p Guarded.slotList p.slotList
  | shapeDeclaration : GrammarRule p Guarded.shapeDeclaration p.shapeDeclaration
  | shapeOfSlots : GrammarRule p Guarded.shapeOfSlots p.shapeOfSlots
  | resultStatement : GrammarRule p Guarded.resultStatement p.resultStatement
  | wholeComparison (stop : Nat) :
      GrammarRule p (Guarded.wholeComparison stop) (p.wholeComparison stop)
  | branchStatement : GrammarRule p Guarded.branchStatement p.branchStatement
  | conditional : GrammarRule p Guarded.conditional p.conditional
  | keywordHeader : GrammarRule p Guarded.keywordHeader p.keywordHeader
  | bareHeader : GrammarRule p Guarded.bareHeader p.bareHeader
  | invocation : GrammarRule p Guarded.invocation p.invocation
  | map {α β : Type} {w : Guarded α} {x : Rule α} (f : α → β) (hx : GrammarRule p w x) :
      GrammarRule p (do return f (← w)) (do return f (← x))
  | attempt {α : Type} {w : Guarded α} {x : Rule α} (hx : GrammarRule p w x) :
      GrammarRule p (Guarded.attempt w) (Rule.attempt x)
  | complete {α : Type} {w : Guarded α} {x : Rule α} (hx : GrammarRule p w x) :
      GrammarRule p (Guarded.complete w) (p.complete x)
  | nothing {α : Type} : GrammarRule p (Guarded.firstOf ([] : List (Guarded α))) (Rule.firstOf [])
  | first {α : Type} {w : Guarded α} {x : Rule α} {ws : List (Guarded α)} {xs : List (Rule α)}
      (hx : GrammarRule p w x) (hxs : GrammarRule p (Guarded.firstOf ws) (Rule.firstOf xs)) :
      GrammarRule p (Guarded.firstOf (w :: ws)) (Rule.firstOf (x :: xs))

namespace GrammarRule

theorem owner_follows (hp : p.OnlyStop) (hs : p.Onward s) :
    Guarded.Follows p base 0 (Guarded.nested Guarded.reference) p.owner s (s.pos + 1) := by
  rw [Phrase.owner]
  rcases hroom : p.room with _ | room
  · exact .nested_zero hs hroom.symm
  · have hfuel : room < base + p.room + 1 := by omega
    refine .nested_succ hs (by omega) (.congr ?_ rfl (.referenceWithin hp (by omega) hfuel hs))
    rfl

/-- Each rule is followed, and has moved on where it gives something. -/
theorem follows (h : GrammarRule p w x) (hp : p.OnlyStop) (hs : p.Onward s) :
    Guarded.Follows p base 0 w x s (s.pos + 1) := by
  induction h generalizing s with
  | eat hk => exact .eat hp hk hs
  | eatAny hk what => exact .eatAny hp hk hs what
  | longName => exact .longName hp hs
  | plainReference => exact .plainReference hp hs
  | typeName => exact .typeName hp hs
  | reference => exact .reference hp hs
  | owner => exact owner_follows hp hs
  | ownedName => exact .ownedName hp (fun t ht => owner_follows hp ht) hs
  | literal => exact .literal hp hs
  | literalOrSlot => exact .literalOrSlot hp hs
  | primary => exact .primary hp hs
  | term => exact .term hp hs
  | arithmetic => exact .arithmetic hp hs
  | comparison => exact .comparison hs
  | compared => exact .compared hp hs
  | expression => exact .expression hp hs
  | arithmeticPhrase inPlace => exact .arithmeticPhrase hp inPlace hs
  | assignment => exact .assignment hp hs
  | initializer => exact .initializer hp hs
  | variableDeclaration => exact .variableDeclaration hp hs
  | unitAlias => exact .unitAlias hp hs
  | constantDeclaration => exact .constantDeclaration hp hs
  | pointerDeclaration => exact .pointerDeclaration hp hs
  | slotAlias => exact .slotAlias hp hs
  | slot => exact .slot hp hs
  | slotList => exact .slotList hp hs
  | shapeDeclaration => exact .shapeDeclaration hp hs
  | shapeOfSlots => exact .shapeOfSlots hp hs
  | resultStatement => exact .resultStatement hp hs
  | wholeComparison stop => exact .wholeComparison hp stop hs
  | branchStatement => exact .branchStatement hs
  | conditional => exact .conditional hp hs
  | keywordHeader => exact .keywordHeader hp hs
  | bareHeader => exact .bareHeader hs
  | invocation => exact .invocation hs
  | map f _ ih => exact .bind' (ih hs) fun a t ht hle => .pure' ht hle (f a)
  | attempt _ ih => exact .attempt hs (ih hs)
  | complete _ ih => exact .complete hs (ih hs)
  | nothing => exact .firstOf_nil hs
  | first _ _ ih ihs =>
    refine .firstOf_cons hs (ih hs) fun t ht hpos => ?_
    rw [← hpos]
    exact ihs ht

theorem sentenceOf (entry : Entry) :
    GrammarRule p (Guarded.sentenceOf entry) (p.sentenceOf entry) := by
  cases entry with
  | reference =>
    exact .map Sentence.stmt (.first (.complete .pointerDeclaration)
      (.first (.complete .shapeDeclaration) (.first (.complete .shapeOfSlots) .nothing)))
  | declaration =>
    exact .map Sentence.stmt (.first (.complete (.map _ .variableDeclaration))
      (.first (.complete .unitAlias) (.first (.complete .constantDeclaration) .nothing)))
  | expression =>
    exact .map Sentence.stmt (.map _ (.first (.complete (.arithmeticPhrase true))
      (.first (.complete .assignment) .nothing)))
  | conditional => exact .map Sentence.stmt (.complete .conditional)
  | labeled => exact .complete .keywordHeader
  | result => exact .map Sentence.stmt (.complete .resultStatement)
  | invocation => exact .first (.complete .bareHeader) (.first (.complete .invocation) .nothing)

end GrammarRule

/-- The states of a reader of a phrase that is `base` levels deep: it starts with the tokens, none
    of which closes them, and runs rules. -/
inductive Reachable (p : Phrase) (base : Nat) : Reader → Prop where
  | start (hp : p.OnlyStop) : Reachable p base (p.reader base 0 {})
  | run {α : Type} {w : Guarded α} {x : Rule α} {a : Option α} {r t : Reader}
      (hr : Reachable p base r) (hw : GrammarRule p w x) (h : w r = some (a, t)) :
      Reachable p base t

/-- Rules only ever change the progress of a reader, and lead it on. -/
theorem Reachable.onward {r : Reader} (hr : Reachable p base r) :
    p.OnlyStop ∧ ∃ s, p.Onward s ∧ r = p.reader base 0 s := by
  induction hr with
  | start hp => exact ⟨hp, {}, .start, rfl⟩
  | run _ hw h ih =>
    obtain ⟨hp, s, hs, rfl⟩ := ih
    have hfollows : Guarded.Follows p base 0 _ _ s _ := hw.follows hp hs
    obtain ⟨-, rfl⟩ := Prod.mk.inj (Option.some.inj (h.symm.trans hfollows.run))
    exact ⟨hp, _, hfollows.onward, rfl⟩

/-- Significant tokens do not close themselves. -/
theorem onlyStop_phraseOf (memoize : Bool) (room : Nat) (branch : List Token → Stmt × Bool)
    (unannounced : Bool) (ts : List Token) :
    (phraseOf memoize room branch unannounced (ts.filter Token.isSignificant)).OnlyStop := by
  intro t ht
  have hmem := (withoutComments_sublist unannounced _).subset ht
  exact bne_iff_ne.1 (Bool.and_eq_true_iff.1 (List.mem_filter.1 hmem).2).2

/-! ### Whole sentences -/

namespace Guarded

theorem sentence_follows (hp : p.OnlyStop) (hs : p.Onward s) (hfirst : s.pos = 0) :
    Follows p base 0 sentence p.sentence s (s.pos + 1) := by
  have hkind : p.kindAt 0 = p.kindAt s.pos := by rw [hfirst]
  rw [Phrase.sentence, hkind]
  refine .looks (here_reader hs) ?_
  rcases Entry.ofKind? (p.kindAt s.pos) with _ | entry
  · exact .fail hs _
  · exact (GrammarRule.sentenceOf entry).follows hp hs

theorem read_reader (h : Follows p base 0 w x {} lo) :
    read w (p.reader base 0 {}) = some (p.read x) := by
  rw [read, h.run, Phrase.read]
  rcases hx : x {} with ⟨_ | a, s⟩
  · have htoken : (p.reader base 0 s).tokens[min s.furthest p.size]? =
        some (p.tokenAt s.furthest) := by
      rw [getElem?_reader (Nat.min_le_right _ _), tokenAt_min]
    simp only [length_reader, Nat.add_sub_cancel]
    exact congrArg (Option.map _) htoken
  · rfl

/-- Branches are read the same way if sentences are and bodies are shorter than headers. -/
theorem branchOf_eq {parse : List Token → Except ParseFailure Sentence}
    {parse' : List Token → Option (Except ParseFailure Sentence)}
    (hparse : ∀ ts, parse' ts = some (parse ts))
    (hbody : ∀ ts label body, parse ts = .ok (.header label (some body)) → body.length < ts.length)
    (ts : List Token) : branchOf parse' ts = some (Grammar.branchOf parse ts) := by
  fun_induction Grammar.branchOf parse ts with
  | case1 ts e he => rw [branchOf, hparse, he]
  | case2 ts s hs => rw [branchOf, hparse, hs]
  | case3 ts label hl => rw [branchOf, hparse, hl]
  | case4 ts label body hl hlt inner ih =>
    rw [branchOf, hparse, hl]
    simp only [hlt, if_true, ih, Option.map_some]
    rfl
  | case5 ts label body hl hlt => exact absurd (hbody ts label body hl) hlt

theorem body_length_lt {memoize : Bool} {room : Nat} {ts body : List Token} {label : Label}
    (h : Grammar.sentenceWithin memoize room ts = .ok (.header label (some body))) :
    body.length < ts.length := by
  have hlength := ((withoutComments_sublist true (ts.filter Token.isSignificant)).trans
    List.filter_sublist).length_le
  have hsentence := derives_sentenceWithin h
  generalize withoutComments true (ts.filter Token.isSignificant) = us at hsentence hlength
  cases hsentence with
  | body =>
    rw [List.length_append, List.length_cons] at hlength
    omega

theorem sentenceWithin_eq (memoize : Bool) (depth room : Nat) (ts : List Token) :
    sentenceWithin memoize depth room ts = some (Grammar.sentenceWithin memoize room ts) := by
  induction room generalizing depth ts with
  | zero => exact read_reader (sentence_follows (onlyStop_phraseOf memoize _ _ true ts) .start rfl)
  | succ room ih =>
    have hbranch : (fun ts => branchOf (sentenceWithin memoize (depth + 1) room) ts) =
        fun ts => some (Grammar.branchOf (Grammar.sentenceWithin memoize room) ts) :=
      funext fun ts => branchOf_eq (ih (depth + 1)) (fun ts label body h => body_length_lt h) ts
    rw [sentenceWithin, hbranch]
    exact read_reader (sentence_follows (onlyStop_phraseOf memoize _ _ true ts) .start rfl)

end Guarded

/-- From every state that a reader can come to, every rule of the grammar comes to an end without
    an index or a cut outside of the tokens and gives what it gives unguarded. It leaves the tokens
    and the depth as they were and the cursor at a token or the closing one, further on if
    something is given. Where nothing is given, whatever is attempted, completed, nested, kept or
    tried in turn leaves the cursor exactly where it was, and so does a reference. Whole sentences
    are read by these rules, the branches in them by readers of their own. -/
theorem cursor_discipline :
    (∀ (α : Type) (p : Phrase) (base : Nat) (r : Reader) (w : Guarded α) (x : Rule α),
      Reachable p base r → GrammarRule p w x →
        ∃ a t, w r = some (a, t) ∧ x r.progress = (a, t.progress) ∧
          t.tokens = r.tokens ∧ t.depth = r.depth ∧
          t.progress.pos ≤ t.tokens.length - 1 ∧
          (a.isSome → r.progress.pos < t.progress.pos)) ∧
    (∀ (α : Type) (w : Guarded α) (ws : List (Guarded α)),
      (Guarded.attempt w).Returns ∧ (Guarded.complete w).Returns ∧ (Guarded.nested w).Returns ∧
        (Guarded.firstOf ws).Returns) ∧
    (∀ (k : Kept) (w : Guarded Expr), (Guarded.keptExpression k w).Returns) ∧
    Guarded.reference.Returns ∧
    ∀ (settings : ReadingSettings) (ts : List Token),
      Guarded.parseSentence settings ts = some (parseSentence settings ts) := by
  refine ⟨fun α p base r w x hr hw => ?_, fun α w ws => ?_, Guarded.returns_keptExpression,
    Guarded.returns_reference, fun settings ts => Guarded.sentenceWithin_eq ..⟩
  · obtain ⟨hp, s, hs, rfl⟩ := hr.onward
    have hfollows : Guarded.Follows p base 0 w x s (s.pos + 1) := hw.follows hp hs
    obtain ⟨hrun, honward, hle⟩ := hfollows
    refine ⟨_, _, hrun, rfl, rfl, rfl, ?_, fun hsome => ?_⟩
    · rw [Guarded.length_reader, Nat.add_sub_cancel]
      exact honward.pos
    · obtain ⟨b, hb⟩ := Option.isSome_iff_exists.1 hsome
      exact hle b hb
  · exact ⟨Guarded.returns_attempt, Guarded.returns_complete, Guarded.returns_nested,
      Guarded.returns_firstOf ws⟩

/-- An operator without an operand behind it: the sum has moved on, but not past the name. -/
theorem cursor_discipline_plus :
    let tokens : List Token :=
      [⟨.indefiniteArticle, "a", 0, 1⟩, ⟨.identifier, "box", 2, 5⟩, ⟨.plusWord, "plus", 6, 10⟩]
    let p := phraseOf true 1 (branchWithin true 1) true (tokens.filter Token.isSignificant)
    Reachable p 0 (p.reader 0 0 {}) ∧ GrammarRule p Guarded.arithmetic p.arithmetic ∧
      ∃ a t, Guarded.arithmetic (p.reader 0 0 {}) = some (a, t) ∧ a.isSome ∧ t.progress.pos = 2 ∧
        t.tokens.length - 1 = 3 := by
  intro tokens p
  have hr : Reachable p 0 (p.reader 0 0 {}) := .start (onlyStop_phraseOf _ _ _ _ _)
  obtain ⟨a, t, hw, hx, htokens, -⟩ := cursor_discipline.1 _ p 0 _ _ _ hr .arithmetic
  have hrun : (p.arithmetic {}).1.isSome ∧ (p.arithmetic {}).2.pos = 2 := by decide
  have hx' : p.arithmetic {} = (a, t.progress) := hx
  rw [hx'] at hrun
  exact ⟨hr, .arithmetic, a, t, hw, hrun.1, hrun.2, by rw [htokens]; rfl⟩

end Prose.Grammar
