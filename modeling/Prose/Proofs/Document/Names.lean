import Prose.Proofs.Document.Everywhere
import Prose.Proofs.Document.Nested
import Prose.Proofs.Grammar.Names
import Prose.Proofs.Loose.Names

/- Names in documents. The tokens of a paragraph stand for their parts of the text, and the
   words among them have no blanks in them. So what the grammar reads of them is named, and
   so is what a fragment is read as by its outline, but for two slips: a unit word `s`, and a
   declaration with blanks in the place of its name. -/
namespace Prose

open Grammar Text Node

variable {fallback : Bool}

/-! Tokens. -/

namespace Token

variable {c : Char} {rest cs before after : List Char} {t : Token}

/-- The words of names have no blanks in them. -/
theorem isWord_of_identifier (h : (lexeme c rest).1 = .identifier) :
    IsWord (c :: rest.take (lexeme c rest).2) := by
  have hc : isBlank c = false := (endsSolid_lexeme (by rw [h]; decide)).1
  have hword {n : Nat} (hsolid : ∀ d ∈ rest.take n, isBlank d = false) : IsWord (c :: rest.take n) :=
    ⟨List.cons_ne_nil _ _, List.forall_mem_cons.2 ⟨hc, hsolid⟩⟩
  revert h
  rw [lexeme.eq_def, if_neg (by simp [hc])]
  -- one case for each first character that has a meaning of its own
  split
  case h_5 => split <;> simp
  case h_6 | h_7 => exact fun _ => hword (solid_take_possessiveLexeme rest)
  case h_8 => split <;> simp
  case h_9 => split <;> simp
  case h_10 => split <;> simp
  case h_11 =>
    split
    · exact fun _ => hword (solid_take_numberLexeme rest)
    · split
      · exact fun _ => hword (solid_take_wordLength rest)
      · simp
  all_goals simp

theorem word_of_mem_scanFrom {offset : Nat} (h : t ∈ scanFrom offset cs) (hkind : t.kind = .identifier) :
    IsWord t.text.toList := by
  obtain ⟨c, rest, hlexeme, htext⟩ := lexeme_of_mem_scanFrom h (by rw [hkind]; decide)
  rw [htext]
  exact isWord_of_identifier (hlexeme.symm.trans hkind)

/-- A token of a part of a text stands for its part of the whole. -/
theorem slice_of_mem_scanFrom (h : t ∈ scanFrom (byteLength before) cs) :
    slice (before ++ (cs ++ after)) t.start t.stop = t.text.toList := by
  obtain ⟨left, right, hcs, hstart, hstop⟩ := exists_part_of_mem_scanFrom h
  have hwhole : before ++ (cs ++ after) = (before ++ left) ++ (t.text.toList ++ (right ++ after)) := by
    rw [hcs]
    simp only [List.append_assoc]
  rw [hstop, hstart, ← byteLength_append, hwhole]
  exact slice_part _ _ _

end Token

namespace Reading

variable {span : Span}

/-- The tokens of a paragraph stand for their parts of the text. -/
theorem allFrom_tokens {r : Reading} (hstart : Cut r.text span.start) (hstop : Cut r.text span.stop)
    (hle : span.start ≤ span.stop) : Token.AllFrom r.text (r.tokens span) := by
  intro t ht
  obtain ⟨hscan, hsignificant⟩ := List.mem_filter.1 ht
  obtain ⟨before, part, after, htext, hbefore, hpart⟩ := hstart.exists_part hstop hle
  rw [← hbefore, ← hpart, htext, slice_part] at hscan
  refine ⟨hsignificant, ?_, Token.word_of_mem_scanFrom hscan⟩
  rw [htext]
  exact Token.slice_of_mem_scanFrom hscan

theorem allFrom_paragraph (settings : ReadingSettings) (strict : Bool) (text : String)
    (h : span ∈ Layout.paragraphSpans text.toList) :
    Token.AllFrom (ofText settings strict text).text ((ofText settings strict text).tokens span) := by
  have hblanked := Layout.blanked_withoutComments settings.commentMarker text.toList
  have hsits := Layout.sits_of_mem_paragraphSpans h
  exact allFrom_tokens (hblanked.cut hsits.2.1) (hblanked.cut hsits.2.2) hsits.1

end Reading

/-! Statements and labels. -/

/-- What is read of the tokens of a text is named. -/
theorem pervades_named (r : Reading) :
    Pervades r (Token.AllFrom r.text) (fun s => (Node.stmt s).Named r.settings.fallback r.text)
      fun l => ∀ c ∈ (Node.label l).children, c.Named r.settings.fallback r.text where
  part := Token.AllFrom.part
  significant h t ht := (h t ht).significant
  sentence hts h := by
    cases h with
    | stmt h => exact h.named hts
    | header hlabel | body hlabel => exact hlabel.named (Token.AllFrom.part hts (by grind))
  loose hfallback h := by
    rw [hfallback]
    exact LooseDeclaration.named_parse rfl (congrArg Except.toOption h)
  anyUnread := named_ofUnread
  noBody {l} _ := named_noBody l
  underHeader := named_underHeader
  merge hl hm c hc := (Label.mem_children_merge hc).elim (hl c) (hm c)

/-- A paragraph of named statements under a label of named parts. -/
theorem Paragraph.All.named {text : List Char} {p : Paragraph}
    (h : p.All (fun s => (Node.stmt s).Named fallback text)
      fun l => ∀ c ∈ (Node.label l).children, c.Named fallback text) :
    (Node.paragraph p).Named fallback text := by
  apply named_of_names_eq_nil rfl
  refine List.forall_mem_append.2 ⟨List.forall_mem_map.2 fun l hl => ?_, List.forall_mem_map.2 h.statements⟩
  exact named_of_names_eq_nil rfl (h.label l (Option.mem_toList.1 hl))

/-! Documents. -/

/-- Names are well written. Every name in a document is not empty, has no blanks at its ends
    and no two blanks side by side, unless it is one of two that are empty: what is left of
    the unit word `s`, or the name of a declaration that the fallback finds with only blanks,
    three or more of them, between its article and its verb. -/
theorem names_proper_or_empty (settings : ReadingSettings) (text : String) (strict : Bool) :
    let root : Node := .document (Document.parse settings text strict)
    ∀ n ∈ root.preorder, ∀ name ∈ n.names, IsName name ∨ name = "" ∧
      root.Unnamed settings.fallback (Layout.withoutComments settings.commentMarker text.toList) n := by
  intro root
  let r : Reading := .ofText settings strict text
  have hparagraphs : ∀ p ∈ (Document.parse settings text strict).paragraphs,
      (Node.paragraph p).Named r.settings.fallback r.text := by
    intro p hp
    have htokens (span : Span) (hspan : span ∈ Layout.paragraphSpans text.toList) :
        ∀ t ∈ r.tokens span, t.ReadFrom r.text :=
      Reading.allFrom_paragraph settings strict text hspan
    exact (Document.all_parse (pervades_named r) htokens p hp).named
  show root.Named r.settings.fallback r.text
  exact named_of_names_eq_nil rfl (List.forall_mem_map.2 hparagraphs)

set_option maxRecDepth 4096 in
/-- Two blanks in a name are read as one, and the unit `s` has no name. -/
theorem names_proper_or_empty_unit :
    let text := "the long  foot is 12 s."
    let name : Reference := .plain "long foot" ⟨4, 14⟩
    let base : Reference := .plain "" ⟨21, 22⟩
    let root : Node := .document
      ⟨[⟨[.unitAlias name (.int 12 ⟨18, 20⟩) base ⟨0, 22⟩], none, ⟨0, 23⟩⟩], ⟨0, 23⟩⟩
    .document (Document.parse {} text) = root ∧
      (.reference name ∈ root.preorder ∧ name.name ∈ (Node.reference name).names ∧ IsName name.name) ∧
      (.reference base ∈ root.preorder ∧ base.name ∈ (Node.reference base).names ∧
        root.Unnamed true text.toList (.reference base)) := by
  intro text name base root
  have hread : .document (Document.parse {} text) = root := by cbv
  have hpreorder : root.preorder = [root, .paragraph ⟨[.unitAlias name (.int 12 ⟨18, 20⟩) base ⟨0, 22⟩],
      none, ⟨0, 23⟩⟩, .stmt (.unitAlias name (.int 12 ⟨18, 20⟩) base ⟨0, 22⟩), .reference name,
      .expr (.int 12 ⟨18, 20⟩), .reference base] := by cbv
  have hname : .reference name ∈ root.preorder := by simp [hpreorder]
  have hbase : .reference base ∈ root.preorder := by simp [hpreorder]
  have hall := names_proper_or_empty {} text false
  rw [hread] at hall
  refine ⟨hread, ⟨hname, .head _, ?_⟩, hbase, .head _, ?_⟩
  · refine (hall _ hname "long foot" (.head _)).resolve_right fun h => absurd h.1 (by decide)
  · have hunnamed := ((hall _ hbase "" (.head _)).resolve_left not_isName_empty).2
    rwa [show Layout.withoutComments _ text.toList = text.toList by cbv] at hunnamed

set_option maxRecDepth 4096 in
/-- In `the   is a number.` a variable without a name is declared. -/
theorem name_of_blanks_empty :
    ¬∀ (settings : ReadingSettings) (text : String) (strict : Bool),
      ∀ n ∈ (Node.document (Document.parse settings text strict)).preorder,
        ∀ name ∈ n.names, IsName name := by
  intro h
  let d : VariableDeclaration := ⟨"", ⟨"number", false, ⟨11, 17⟩⟩, none, ⟨0, 17⟩⟩
  let p : Paragraph := ⟨[.variableDeclaration d ⟨0, 17⟩], none, ⟨0, 18⟩⟩
  have hread : Document.parse {} "the   is a number." = ⟨[p], ⟨0, 18⟩⟩ := by cbv
  have hpreorder : (Node.document ⟨[p], ⟨0, 18⟩⟩).preorder = [.document ⟨[p], ⟨0, 18⟩⟩, .paragraph p,
      .stmt (.variableDeclaration d ⟨0, 17⟩), .variableDeclaration d, .typeName d.type] := by cbv
  have hempty := h {} "the   is a number." false (.variableDeclaration d)
  rw [hread, hpreorder] at hempty
  exact not_isName_empty (hempty (by simp) "" (.head _))

end Prose
