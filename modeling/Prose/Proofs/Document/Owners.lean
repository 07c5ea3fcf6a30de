import Prose.Proofs.Document.Names
import Prose.Proofs.Document.Parts
import Prose.Proofs.Grammar.Owners

/- References in documents, and how many owners they have. The cap on nesting bounds the
   owners behind an `of`, and no others: a chain of possessives is read in a loop that knows
   no cap. So a reference has more owners than the cap only by the apostrophes in what it
   covers. -/
namespace Prose

open Grammar Text Node

variable {Q : Reference → Prop} {T : List Token → Prop} {room : Nat}

/-! What is true of all references. -/

/-- A property of references that those have that are read with so much room of tokens with
    another property, and those that nothing owns. Parts of such tokens are such tokens. -/
structure Grammar.Allows (room : Nat) (T : List Token → Prop) (Q : Reference → Prop) : Prop where
  part : ∀ {ts us}, T ts → us.Sublist ts → T us
  unowned : ∀ {r : Reference}, r.owners = [] → Q r
  derived : ∀ {r ts}, ReferenceFrom room r ts → T ts → (Node.reference r).UsesOnly Q

/-- It asks nothing of other nodes. -/
theorem Grammar.Allows.admits (ha : Allows room T Q) :
    Admits room T fun n => ∀ r, n = .reference r → Q r where
  part := ha.part
  plain n hn r hr := by
    rw [hr] at hn
    cases hn
  unowned h r hr := Node.reference.inj hr ▸ ha.unowned h
  reference h hts := usesOnly_iff_everywhere.1 (ha.derived h hts)
  operation _ _ _ := nofun

/-- Whatever a text is read as, it uses only references with a property, if all tokens that
    the text gives are such that only references with the property are read of them. -/
theorem ReadAs.usesOnly {settings : ReadingSettings} {text : String} {root : Node}
    (hroot : ReadAs settings text root) (ha : Allows settings.maxDepth T Q)
    (hsignificant : ∀ {ts}, T ts → ∀ t ∈ ts, t.isSignificant)
    (hparagraphs : ∀ strict, ∀ span ∈ Layout.paragraphSpans text.toList,
      T ((Reading.ofText settings strict text).tokens span))
    (hwhole : T (tokensOf settings text)) : root.UsesOnly Q :=
  usesOnly_iff_everywhere.2 (hroot.everywhere ha.admits hsignificant hparagraphs hwhole)

/-! Possessives. -/

namespace Token

/-- A possessive starts with an apostrophe. -/
theorem isApostrophe_of_possessive {c : Char} {rest : List Char}
    (h : (lexeme c rest).1 = .possessive) : isApostrophe c := by
  have hword (n : Nat) :
      (Kind.ofKeyword? (String.ofList (c :: rest.take n))).getD .identifier ≠ .possessive := by
    have hall : ∀ k ∈ keywordKinds.map Prod.snd, k ≠ .possessive := by decide
    cases h : Kind.ofKeyword? (String.ofList (c :: rest.take n)) with
    | none => simp
    | some k => exact hall k (ofKeyword?_mem h)
  revert h
  unfold lexeme
  split
  · simp
  · -- one case for each first character that has a meaning of its own
    split
    case h_5 => split <;> simp
    case h_6 | h_7 => exact fun _ => by decide
    case h_8 => split <;> simp
    case h_9 => split <;> simp
    case h_10 => split <;> simp
    case h_11 =>
      split
      · simp only [numberLexeme]
        split
        · split <;> simp
        · simp
      · split
        · exact fun h => absurd h (hword _)
        · simp
    all_goals simp

theorem isApostrophe_of_mem_scanFrom {t : Token} {offset : Nat} {cs : List Char}
    (h : t ∈ scanFrom offset cs) (hkind : t.kind = .possessive) :
    ∃ c rest, t.text.toList = c :: rest ∧ isApostrophe c := by
  obtain ⟨c, rest, hlexeme, htext⟩ := lexeme_of_mem_scanFrom h (by rw [hkind]; decide)
  exact ⟨c, _, htext, isApostrophe_of_possessive (hlexeme.symm.trans hkind)⟩

end Token

namespace Reading

variable {r : Reading} {span : Span}

/-- The tokens of a part of a text are cut out of it, each possessive at an apostrophe. -/
theorem marked_tokens (h : span.Sits (Cut r.text)) : Token.Marked r.text (r.tokens span) where
  significant _ := significant_of_mem_tokens
  laid := (covers_slice (.refl _) h).laid
  apostrophe t ht hkind := by
    have hslice := (allFrom_tokens h.2.1 h.2.2 h.1 t ht).slice
    obtain ⟨c, rest, htext, hc⟩ := Token.isApostrophe_of_mem_scanFrom (List.mem_filter.1 ht).1 hkind
    rw [Span.apostrophes, apostrophes, Span.ofToken, hslice, htext, List.countP_cons_of_pos hc]
    exact Nat.le_add_left ..

/-- The tokens of a whole text are those of its own span. -/
theorem tokens_spanOf (settings : ReadingSettings) (strict : Bool) (text : String) :
    (ofText settings strict text).tokens (Document.spanOf text) = tokensOf settings text := by
  have hlength := (Layout.blanked_withoutComments settings.commentMarker text.toList).byteLength_eq
  have hslice := slice_part [] (Layout.withoutComments settings.commentMarker text.toList) []
  rw [List.append_nil, List.nil_append, byteLength_nil, Nat.zero_add, hlength] at hslice
  exact congrArg (fun cs => Token.significant (Token.scanFrom 0 cs)) hslice

end Reading

/-! Chains of owners. -/

/-- Only references whose owners are counted are read of tokens of a text. -/
theorem allows_capped (text : List Char) (room : Nat) :
    Allows room (Token.Marked text) (Reference.Capped text room) where
  part := Token.Marked.part
  unowned h := by
    rw [Reference.Capped, h]
    exact Nat.zero_le _
  derived := ReferenceFrom.capped

/-- The cap bounds the owners behind an `of`: whatever a text is read as, every reference has
    no more owners above the cap than there are apostrophes in what it covers. -/
theorem owners_le_maxDepth_add {settings : ReadingSettings} {text : String} {root : Node}
    (hroot : ReadAs settings text root) (r : Reference) (hr : .reference r ∈ root.preorder) :
    r.owners.length ≤ settings.maxDepth +
      (slice (Layout.withoutComments settings.commentMarker text.toList) r.span.start r.span.stop).countP
        isApostrophe := by
  have hblanked := Layout.blanked_withoutComments settings.commentMarker text.toList
  have hmarked (strict : Bool) {span : Span} (hspan : span.Sits (Cut text.toList)) :
      Token.Marked (Layout.withoutComments settings.commentMarker text.toList)
        ((Reading.ofText settings strict text).tokens span) :=
    Reading.marked_tokens (r := .ofText settings strict text)
      ⟨hspan.1, hblanked.cut hspan.2.1, hblanked.cut hspan.2.2⟩
  have hwhole := hmarked false (Document.sits_spanOf text)
  rw [Reading.tokens_spanOf] at hwhole
  exact hroot.usesOnly (allows_capped _ _) Token.Marked.significant
    (fun strict span hspan => hmarked strict (Layout.sits_of_mem_paragraphSpans hspan)) hwhole r hr

/-- The target of an assignment, in a document of nothing else. -/
theorem mem_preorder_assignment (target : Reference) (value : Expr) (s t u v : Span) :
    .reference target ∈
      (Node.document ⟨[⟨[.expression (.assignment target value s) t], none, u⟩], v⟩).preorder := by
  have hexpr : .reference target ∈ (Node.expr (.assignment target value s)).preorder :=
    mem_preorder_of_mem_children (.head _)
  have hstmt : .reference target ∈ (Node.stmt (.expression (.assignment target value s) t)).preorder :=
    preorder_subset (.head _) hexpr
  exact preorder_subset (.head _) (preorder_subset (.head _) hstmt)

set_option maxRecDepth 4096 in
/-- As many owners as there may be: one behind the `of`, and one at the apostrophe. -/
theorem owners_le_maxDepth_add_mixed :
    let settings : ReadingSettings := { maxDepth := 1 }
    let text := "put 1 into a z's y of a x."
    let r : Reference := ⟨"y", ⟨11, 25⟩, [⟨"z", ⟨11, 25⟩⟩, ⟨"x", ⟨22, 25⟩⟩]⟩
    let root : Node := .document
      ⟨[⟨[.expression (.assignment r (.int 1 ⟨4, 5⟩) ⟨0, 25⟩) ⟨0, 25⟩], none, ⟨0, 26⟩⟩], ⟨0, 26⟩⟩
    ReadAs settings text root ∧ .reference r ∈ root.preorder ∧ r.owners.length = 2 ∧
      (slice text.toList 11 25).countP isApostrophe = 1 ∧
      r.owners.length ≤ settings.maxDepth + 1 := by
  intro settings text r root
  have hread : .document (Document.parse settings text) = root := by cbv
  have hroot : ReadAs settings text root := hread ▸ .document false
  have hr : .reference r ∈ root.preorder := mem_preorder_assignment ..
  have hcount : (slice text.toList 11 25).countP isApostrophe = 1 := by cbv
  have hle := owners_le_maxDepth_add hroot r hr
  rw [show Layout.withoutComments _ text.toList = text.toList by cbv, hcount] at hle
  exact ⟨hroot, hr, rfl, hcount, hle⟩

set_option maxRecDepth 4096 in
/-- Possessives alone are not bounded by the cap: two of them are read where it is one. -/
theorem possessives_exceed_maxDepth :
    ¬∀ (settings : ReadingSettings) (text : String) (root : Node), ReadAs settings text root →
      ∀ r, .reference r ∈ root.preorder → r.owners.length ≤ settings.maxDepth := by
  intro h
  let settings : ReadingSettings := { maxDepth := 1 }
  let r : Reference := ⟨"x", ⟨11, 22⟩, [⟨"y", ⟨11, 18⟩⟩, ⟨"z", ⟨11, 14⟩⟩]⟩
  have hread : Document.parse settings "put 1 into a z's y's x." =
      ⟨[⟨[.expression (.assignment r (.int 1 ⟨4, 5⟩) ⟨0, 22⟩) ⟨0, 22⟩], none, ⟨0, 23⟩⟩], ⟨0, 23⟩⟩ := by
    cbv
  have hle := h settings "put 1 into a z's y's x." _ (.document false) r
  rw [hread] at hle
  exact absurd (hle (mem_preorder_assignment ..)) (by decide)

end Prose
