import Prose.Proofs.Document.Containment
import Prose.Proofs.Document.Shift
import Prose.Proofs.Grammar.AlikeSentence

/- The cap on nesting. Each level of nesting takes a token of its own and each token takes a
   byte of the text, the comment lines blanked out byte by byte. So a cap that is no less than
   the text is long is never reached, and what it is cannot be observed. -/
namespace Prose

open Grammar Text

/-- There are no more tokens that count than bytes. -/
theorem Token.length_significant_le (offset : Nat) (cs : List Char) :
    (significant (scanFrom offset cs)).length ≤ byteLength cs := by
  fun_induction scanFrom offset cs with
  | case1 offset => exact Nat.le_refl 0
  | case2 offset c rest found chars stop ih =>
    have hsplit : byteLength (c :: rest) = byteLength chars + byteLength (rest.drop found.2) := by
      rw [← byteLength_append, List.cons_append, List.take_append_drop]
    have hpos : 0 < byteLength chars := by
      rw [byteLength_cons]
      exact Nat.lt_add_right _ c.utf8Size_pos
    calc (significant (⟨found.1, String.ofList chars, offset, stop⟩ ::
            scanFrom stop (rest.drop found.2))).length
        ≤ (significant (scanFrom stop (rest.drop found.2))).length + 1 := by
          rw [significant, List.filter_cons]
          split
          · exact Nat.le_refl _
          · exact Nat.le_succ _
      _ ≤ byteLength (c :: rest) := by omega

variable {settings : ReadingSettings} {depth : Nat} {text : String}

/-- Blanking comment lines out keeps the length. -/
theorem byteLength_blanked (marker : Char) (text : String) :
    byteLength (Layout.withoutComments marker text.toList) = text.utf8ByteSize := by
  rw [(Layout.blanked_withoutComments marker text.toList).byteLength_eq, byteLength_toList]

namespace Document

variable (h : text.utf8ByteSize ≤ settings.maxDepth) (h' : text.utf8ByteSize ≤ depth)

include h h'

/-- Caps that are no less than the text is long are not reached in any of its sentences. -/
theorem read_maxDepth (strict : Bool) :
    read { settings with maxDepth := depth } strict text = read settings strict text := by
  -- the runs that sentences are read of: they are no longer than the text
  let P (ts : List Token) : Prop := (∀ t ∈ ts, t.isSignificant) ∧ ts.length ≤ text.utf8ByteSize
  have halike : Reading.AlikeOn P (.ofText settings strict text)
      (.ofText { settings with maxDepth := depth } strict text) := by
    refine ⟨rfl, fun {ts} hts => ?_, fun {ts label rest} hts hs => ?_⟩
    · have hparse : parseSentence { settings with maxDepth := depth } ts = parseSentence settings ts :=
        parseSentence_maxDepth (hts.2.trans h) (hts.2.trans h')
      simp only [Reading.sentence, Reading.ofText, hparse]
      rfl
    · obtain ⟨-, hsub⟩ := Reading.body_of_sentence hts.1 hs
      exact ⟨fun t ht => hts.1 t (hsub.subset ht), hsub.length_le.trans hts.2⟩
  refine (read_congr halike fun span ts hts => ⟨?_, ?_⟩).symm
  · exact Reading.significant_of_mem_sentences hts
  · calc ts.length
        ≤ ((Reading.ofText settings strict text).tokens span).length :=
          (Layout.sublist_of_mem_sentences hts).length_le
      _ ≤ byteLength (slice (Reading.ofText settings strict text).text span.start span.stop) :=
          Token.length_significant_le _ _
      _ ≤ byteLength (Reading.ofText settings strict text).text := byteLength_slice_le _ _ _
      _ = text.utf8ByteSize := byteLength_blanked settings.commentMarker text

theorem parse_maxDepth (strict : Bool) :
    parse { settings with maxDepth := depth } text strict = parse settings text strict := by
  rw [parse, parse, read_maxDepth h h']

end Document

/-- The cap on nesting is inert until it is reached. Two settings that differ only in it, with
    both caps no less than a text has bytes, read the text alike: as a text of any sort, the
    failures included, and as a document. -/
theorem maxDepth_inert (settings : ReadingSettings) (depth : Nat) (text : String)
    (h : text.utf8ByteSize ≤ settings.maxDepth) (h' : text.utf8ByteSize ≤ depth) :
    parseText { settings with maxDepth := depth } text = parseText settings text ∧
      ∀ strict, Document.parse { settings with maxDepth := depth } text strict =
        Document.parse settings text strict := by
  refine ⟨?_, Document.parse_maxDepth h h'⟩
  let tokens := Token.significant
    (Token.scanFrom 0 (Layout.withoutComments settings.commentMarker text.toList))
  have htokens : tokens.length ≤ text.utf8ByteSize := by
    rw [← byteLength_blanked settings.commentMarker text]
    exact Token.length_significant_le _ _
  have hnode : parseNode { settings with maxDepth := depth } tokens = parseNode settings tokens :=
    parseNode_maxDepth (htokens.trans h) (htokens.trans h')
  simp only [tokens] at hnode
  simp only [parseText, Document.parse_maxDepth h h', Document.read_maxDepth h h', hnode]

set_option maxRecDepth 4096 in
/-- A text of eleven bytes, which a cap of eleven is enough for and no cap at all is not. -/
theorem maxDepth_inert_conditional :
    "if a, do it".utf8ByteSize ≤ 11 ∧ "if a, do it".utf8ByteSize ≤ 64 ∧
      parseText { maxDepth := 11 } "if a, do it" = parseText { maxDepth := 64 } "if a, do it" ∧
      (parseText { maxDepth := 0 } "if a, do it").isOk = false ∧
      (parseText { maxDepth := 64 } "if a, do it").isOk = true := by
  have hnarrow : "if a, do it".utf8ByteSize ≤ 11 := by decide
  have hwide : "if a, do it".utf8ByteSize ≤ 64 := by decide
  refine ⟨hnarrow, hwide, (maxDepth_inert { maxDepth := 64 } 11 _ hwide hnarrow).1, ?_, ?_⟩
  · cbv
  · cbv

end Prose
