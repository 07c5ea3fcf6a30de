import Prose.Proofs.Document.Shift

/- Locality of paragraphs. What stands in one paragraph of a text has no influence on how
   the others are read: two texts with a blank line between them have the paragraphs of the
   one and those of the other, which start further on. -/
namespace Prose

open Text

variable {settings : ReadingSettings} {text : String}

theorem Layout.StandsIn.sits {cs : List Char} {chunk : Nat × List Char} (h : StandsIn 0 cs chunk) :
    (trimmedSpan chunk.1 chunk.2).Sits (Cut cs) := by
  obtain ⟨before, after, rfl, hspan⟩ := h.exists_trim
  rw [hspan, Nat.zero_add]
  refine ⟨Nat.le_add_right _ _, ⟨before, _, rfl, rfl⟩, ⟨before ++ trim chunk.2, after, ?_, ?_⟩⟩
  · rw [List.append_assoc]
  · exact byteLength_append ..

/-- The spans of the paragraphs lie between cuts of the text. -/
theorem Layout.sits_of_mem_paragraphSpans {cs : List Char} {span : Span}
    (h : span ∈ paragraphSpans cs) : span.Sits (Cut cs) := by
  obtain ⟨chunk, hchunk, rfl⟩ := List.mem_map.1 h
  have hstands := standsIn_of_mem_chunks hchunk
  rw [flatten_lines] at hstands
  exact hstands.sits

/-- They lie between cuts of the text that is read, too. -/
theorem Reading.spans_of_mem_paragraphSpans {strict : Bool} {span : Span}
    (h : span ∈ Layout.paragraphSpans text.toList) :
    (Reading.ofText settings strict text).Spans span :=
  .of_sits (Layout.blanked_withoutComments settings.commentMarker text.toList)
    (Layout.sits_of_mem_paragraphSpans h)

namespace Document

/-- The paragraphs of a text are read in every text that has it as a part and comments
    blanked out in it like there. -/
theorem paragraphs_within {whole : String} {before after : List Char}
    (hwhole : Layout.withoutComments settings.commentMarker whole.toList =
      before ++ (Layout.withoutComments settings.commentMarker text.toList ++ after)) :
    List.Forall₂ (fun span p => (Reading.ofText settings false whole).paragraph span = .ok p)
      ((Layout.paragraphSpans text.toList).map (Span.shift (byteLength before)))
      ((parse settings text).paragraphs.map (Paragraph.shift (byteLength before))) := by
  have hreading : Reading.ofText settings false whole =
      (Reading.ofText settings false text).within before after := by
    simp only [Reading.ofText, Reading.within, hwhole]
  rw [List.forall₂_map_left_iff, List.forall₂_map_right_iff, hreading]
  have hspans : ∀ span ∈ Layout.paragraphSpans text.toList,
      (Reading.ofText settings false text).Spans span :=
    fun span hspan => Reading.spans_of_mem_paragraphSpans hspan
  have hread := (List.forall₂_and_left _ _).2 ⟨hspans, paragraphs_parse settings text⟩
  exact hread.imp fun span p hp => Reading.paragraph_within rfl hp.1 hp.2

/-- The paragraphs of a text are what is read at their spans. -/
theorem paragraphs_unique {ps : List Paragraph}
    (h : List.Forall₂ (fun span p => (Reading.ofText settings false text).paragraph span = .ok p)
      (Layout.paragraphSpans text.toList) ps) : (parse settings text).paragraphs = ps := by
  have hps := mapM_eq_ok_iff.2 h
  rw [mapM_eq_ok_iff.2 (paragraphs_parse settings text)] at hps
  exact Except.ok.inj hps

/-- Where nothing stands before a text, its paragraphs stay where they are. -/
theorem map_shift_zero (settings : ReadingSettings) (text : String) :
    (parse settings text).paragraphs.map (Paragraph.shift 0) = (parse settings text).paragraphs := by
  have hself : Layout.withoutComments settings.commentMarker text.toList =
      [] ++ (Layout.withoutComments settings.commentMarker text.toList ++ []) := by simp
  have hread := paragraphs_within hself
  rw [byteLength_nil, Span.map_shift_zero] at hread
  exact (paragraphs_unique hread).symm

/-- Paragraphs are local. A text, a blank line and another text have the paragraphs of the
    one text, followed by the paragraphs of the other in which every span, those of the
    tokens included, stands further on by the bytes of the first text and of the two line
    breaks. -/
theorem paragraphs_append (settings : ReadingSettings) (first second : String) :
    (parse settings (first ++ "\n\n" ++ second)).paragraphs =
      (parse settings first).paragraphs ++
        (parse settings second).paragraphs.map (Paragraph.shift (first.utf8ByteSize + 2)) := by
  have hlist : (first ++ "\n\n" ++ second).toList =
      first.toList ++ '\n' :: '\n' :: second.toList := by simp
  have hblanked := Layout.withoutComments_blankLine settings.commentMarker first.toList second.toList
  rw [← hlist] at hblanked
  have hbefore : byteLength (Layout.withoutComments settings.commentMarker first.toList ++
      ['\n', '\n']) = first.utf8ByteSize + 2 := by
    rw [byteLength_append, (Layout.blanked_withoutComments _ _).byteLength_eq, byteLength_toList]
    rfl
  have hfront : Layout.withoutComments settings.commentMarker (first ++ "\n\n" ++ second).toList =
      [] ++ (Layout.withoutComments settings.commentMarker first.toList ++ _) := hblanked
  have hfirst := paragraphs_within hfront
  rw [byteLength_nil, Span.map_shift_zero, map_shift_zero] at hfirst
  rw [List.append_cons, List.append_cons, List.append_assoc _ ['\n'] ['\n']] at hblanked
  have hback := hblanked.trans (congrArg _ (List.append_nil _).symm)
  have hsecond := paragraphs_within hback
  rw [List.singleton_append, hbefore] at hsecond
  apply paragraphs_unique
  rw [hlist, Layout.paragraphSpans_blankLine, byteLength_toList]
  exact List.rel_append hfirst hsecond

end Document

end Prose
