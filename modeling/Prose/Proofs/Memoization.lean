import Prose.Proofs.Document.Contribution
import Prose.Proofs.Grammar.Afresh

/- Keeping results cannot be observed. What is read of some tokens or of a text, the
   places and the failures included, does not depend on whether the results of rules
   are kept. Every rule mirrors its fresh form; readings carry that from the rules to
   sentences, from sentences to branches and bodies, and from there to documents. -/
namespace Prose

open Grammar

/-! Sentences. -/

namespace Grammar

variable {α : Type} {p : Phrase}

/-- A rule that mirrors its fresh form reads a phrase as the phrase is read afresh. -/
theorem Mirrors.read_eq {x y : Rule α} (h : Mirrors p x y) : p.read x = p.fresh.read y := by
  have hrun : y {} = ((x {}).1, (x {}).2.plain) := h.run .start
  simp only [Phrase.read, hrun]
  rcases x {} with ⟨_ | a, t⟩ <;> rfl

/-- Keeping results changes nothing in a sentence whose branches are read in a given way. -/
theorem readSentence_memoize (memoize : Bool) (room : Nat) (branch : List Token → Stmt × Bool)
    (tokens : List Token) :
    readSentence memoize room branch tokens = readSentence false room branch tokens :=
  Mirrors.sentence.read_eq

theorem sentenceWithin_eq (memoize : Bool) (room : Nat) (tokens : List Token) :
    sentenceWithin memoize room tokens =
      readSentence memoize room (branchWithin memoize room) tokens := by
  cases room <;> rfl

/-- Blanks between the tokens of a sentence change nothing. -/
theorem sentenceWithin_significant (memoize : Bool) (room : Nat) (tokens : List Token) :
    sentenceWithin memoize room (tokens.filter Token.isSignificant) =
      sentenceWithin memoize room tokens := by
  rw [sentenceWithin_eq, sentenceWithin_eq, readSentence, readSentence, List.filter_filter]
  simp only [Bool.and_self]

theorem sentenceWithin_memoize (memoize : Bool) (room : Nat) (tokens : List Token) :
    sentenceWithin memoize room tokens = sentenceWithin false room tokens := by
  -- on the room; the branches of a sentence have less of it
  induction room generalizing tokens with
  | zero => exact readSentence_memoize memoize 0 _ tokens
  | succ room ih =>
    have hbranch : sentenceWithin memoize room = sentenceWithin false room := funext ih
    simp only [sentenceWithin, hbranch]
    exact readSentence_memoize memoize (room + 1) _ tokens

theorem branchWithin_memoize (memoize : Bool) (room : Nat) :
    branchWithin memoize room = branchWithin false room := by
  funext tokens
  cases room with
  | zero => rfl
  | succ room =>
    have hbranch : sentenceWithin memoize room = sentenceWithin false room :=
      funext (sentenceWithin_memoize memoize room)
    simp only [branchWithin, hbranch]

theorem parseSentence_memoize (settings : ReadingSettings) (memoize : Bool) :
    parseSentence { settings with memoize := memoize } = parseSentence settings := by
  funext tokens
  simp only [parseSentence]
  rw [sentenceWithin_memoize, sentenceWithin_memoize settings.memoize]

theorem parseNode_memoize (settings : ReadingSettings) (memoize : Bool) :
    parseNode { settings with memoize := memoize } = parseNode settings := by
  funext tokens
  have hread (m : Bool) (branch : List Token → Stmt × Bool) (entry : Option Entry) :
      (phraseOf m settings.maxDepth branch false (tokens.filter Token.isSignificant)).read
          ((phraseOf m settings.maxDepth branch false
            (tokens.filter Token.isSignificant)).bareOrSentence entry) =
        (phraseOf false settings.maxDepth branch false (tokens.filter Token.isSignificant)).read
          ((phraseOf false settings.maxDepth branch false
            (tokens.filter Token.isSignificant)).bareOrSentence entry) :=
    (Mirrors.bareOrSentence entry).read_eq
  simp only [parseNode]
  rw [branchWithin_memoize memoize, branchWithin_memoize settings.memoize,
    hread memoize, hread settings.memoize]
  rfl

end Grammar

/-! Documents. -/

namespace Reading

variable {P : List Token → Prop} {r s : Reading} {tokens : List Token}

/-- Two readings of a text that read some runs of tokens alike. The body of a header among
    these runs is one of them. -/
structure AlikeOn (P : List Token → Prop) (r s : Reading) : Prop where
  text : r.text = s.text
  sentence : ∀ {ts}, P ts → r.sentence ts = s.sentence ts
  header : ∀ {ts label rest}, P ts → r.sentence ts = .ok (.header label (some rest)) → P rest

namespace AlikeOn

variable (h : AlikeOn P r s)

include h

theorem body (htokens : P tokens) : r.body tokens = s.body tokens := by
  fun_induction r.body tokens with
  | case1 tokens e he => rw [Reading.body, ← h.sentence htokens, he]
  | case2 tokens s' hs => rw [Reading.body, ← h.sentence htokens, hs]
  | case3 tokens label hl => rw [Reading.body, ← h.sentence htokens, hl]
  | case4 tokens label rest hl hlt ih =>
    rw [ih (h.header htokens hl)]
    conv => rhs; rw [Reading.body, ← h.sentence htokens, hl]
    simp only [hlt, if_true]
  | case5 tokens label rest hl hlt =>
    rw [Reading.body, ← h.sentence htokens, hl]
    simp only [hlt, if_false]

theorem addSentence (htokens : P tokens) (d : Draft) : r.addSentence d tokens = s.addSentence d tokens := by
  simp only [Reading.addSentence, ← h.sentence htokens]
  split
  · rfl
  · rfl
  · rfl
  · next label rest hl => rw [h.body (h.header htokens hl)]

theorem paragraph {span : Span} (hspan : ∀ ts ∈ Layout.sentences (r.tokens span), P ts) :
    r.paragraph span = s.paragraph span := by
  have htokens : s.tokens span = r.tokens span := by simp only [Reading.tokens, h.text]
  have hfold (fragments : List (List Token)) (hfragments : ∀ ts ∈ fragments, P ts) (d : Draft) :
      fragments.foldlM r.addSentence d = fragments.foldlM s.addSentence d := by
    induction fragments generalizing d with
    | nil => rfl
    | cons ts fragments ih =>
      rw [List.forall_mem_cons] at hfragments
      rw [List.foldlM_cons, List.foldlM_cons, h.addSentence hfragments.1]
      exact bind_congr (ih hfragments.2)
  rw [Reading.paragraph, Reading.paragraph, htokens, hfold _ hspan]

end AlikeOn

end Reading

/-- Settings that read all sentences of a text alike read the text alike. -/
theorem Document.read_congr {settings settings' : ReadingSettings} {strict : Bool} {text : String}
    {P : List Token → Prop}
    (h : Reading.AlikeOn P (.ofText settings strict text) (.ofText settings' strict text))
    (hP : ∀ span, ∀ ts ∈ Layout.sentences ((Reading.ofText settings strict text).tokens span), P ts) :
    Document.read settings strict text = Document.read settings' strict text := by
  have hparagraph : (Reading.ofText settings strict text).paragraph =
      (Reading.ofText settings' strict text).paragraph :=
    funext fun span => h.paragraph (hP span)
  simp only [Reading.ofText] at hparagraph
  simp only [Document.read, hparagraph]

theorem Document.read_memoize (settings : ReadingSettings) (memoize strict : Bool) (text : String) :
    Document.read { settings with memoize := memoize } strict text =
      Document.read settings strict text := by
  refine Document.read_congr (P := fun _ => True) ⟨rfl, fun {ts} _ => ?_, fun _ _ => trivial⟩
    fun _ _ _ => trivial
  simp only [Reading.sentence, Reading.ofText, parseSentence_memoize]
  rfl

/-- Keeping results is unobservable. Two settings that differ only in whether results are
    kept read every run of tokens alike, as a sentence and as a bare node, failures
    included; and they read every text alike, as a document and as a text of any sort. -/
theorem memoize_unobservable (settings : ReadingSettings) (memoize : Bool) :
    (∀ tokens, parseSentence { settings with memoize := memoize } tokens =
      parseSentence settings tokens) ∧
    (∀ tokens, parseNode { settings with memoize := memoize } tokens =
      parseNode settings tokens) ∧
    (∀ text, parseText { settings with memoize := memoize } text = parseText settings text) ∧
    (∀ text strict, Document.parse { settings with memoize := memoize } text strict =
      Document.parse settings text strict) := by
  have hdocument (text : String) (strict : Bool) :
      Document.parse { settings with memoize := memoize } text strict =
        Document.parse settings text strict := by
    simp only [Document.parse, Document.read_memoize]
  refine ⟨fun _ => by rw [parseSentence_memoize], fun _ => by rw [parseNode_memoize], ?_, hdocument⟩
  intro text
  simp only [parseText, hdocument, Document.read_memoize, parseNode_memoize]

end Prose
