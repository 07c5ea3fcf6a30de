import Mathlib.Data.List.Induction
import Prose.Proofs.Document.Names
import Prose.Proofs.Token.Quotes

/- Quoted texts in a document. A quoted text stands in one line, and the quotes at its ends
   are no blanks. So a line with a quoted text is not blank, and whether it is a comment is
   settled before the text starts. What the quoted text says moves what stands behind it,
   and does nothing else. -/
namespace Prose.Layout

open Prose.Text

/-- A content between double quotes. -/
def quote (content : List Char) : List Char := '"' :: (content ++ ['"'])

/-- A content that can stand between double quotes in a line. -/
def Quotable (content : List Char) : Prop := '"' ∉ content ∧ '\n' ∉ content

instance (content : List Char) : Decidable (Quotable content) :=
  inferInstanceAs (Decidable (_ ∧ _))

variable {content : List Char}

theorem byteLength_quote (content : List Char) :
    byteLength (quote content) = byteLength content + 2 := by
  have hone : '"'.utf8Size = 1 := by decide
  rw [quote, byteLength_cons, byteLength_append, byteLength_cons, byteLength_nil, hone]
  omega

/-! Lines. -/

/-- A text without a line break goes into the first line of what follows. -/
theorem exists_lines_append (rest : List Char) : ∃ line later, rest = line ++ later.flatten ∧
    ∀ piece, '\n' ∉ piece → piece ≠ [] → lines (piece ++ rest) = (piece ++ line) :: later := by
  obtain ⟨line, later, hrest, hone⟩ : ∃ line later, rest = line ++ later.flatten ∧
      ∀ c ≠ '\n', lines (c :: rest) = (c :: line) :: later := by
    cases hlines : lines rest with
    | nil =>
      obtain rfl : rest = [] := by rw [← flatten_lines rest, hlines]; rfl
      exact ⟨[], [], rfl, fun c hc => by rw [lines, if_neg hc, lines]⟩
    | cons line later =>
      refine ⟨line, later, ?_, fun c hc => lines_cons hc hlines⟩
      rw [← List.flatten_cons, ← hlines, flatten_lines]
  refine ⟨line, later, hrest, fun piece hpiece hne => ?_⟩
  induction piece with
  | nil => exact absurd rfl hne
  | cons c piece ih =>
    rw [List.mem_cons, not_or] at hpiece
    cases piece with
    | nil => exact hone c (Ne.symm hpiece.1)
    | cons d piece => exact lines_cons (Ne.symm hpiece.1) (ih hpiece.2 (List.cons_ne_nil _ _))

/-- A quoted text stands in one line, and the other lines do not depend on what it says. -/
theorem exists_lines_quote (pre post : List Char) : ∃ front left right back,
    pre = front.flatten ++ left ∧ post = right ++ back.flatten ∧
      ∀ content, '\n' ∉ content → lines (pre ++ (quote content ++ post)) =
        front ++ (left ++ (quote content ++ right)) :: back := by
  induction pre with
  | nil =>
    obtain ⟨right, back, hpost, hlines⟩ := exists_lines_append post
    refine ⟨[], [], right, back, rfl, hpost, fun content hcontent => ?_⟩
    exact hlines (quote content) (by simp [quote, hcontent]) (List.cons_ne_nil _ _)
  | cons c pre ih =>
    obtain ⟨front, left, right, back, hpre, hpost, hlines⟩ := ih
    by_cases hc : c = '\n'
    · refine ⟨[c] :: front, left, right, back, ?_, hpost, fun content hcontent => ?_⟩
      · rw [hpre]
        rfl
      · rw [List.cons_append, lines, if_pos hc, hlines content hcontent]
        rfl
    · cases front with
      | nil =>
        refine ⟨[], c :: left, right, back, by rw [hpre]; rfl, hpost, fun content hcontent => ?_⟩
        exact lines_cons hc (hlines content hcontent)
      | cons line front =>
        refine ⟨(c :: line) :: front, left, right, back, by rw [hpre]; rfl, hpost,
          fun content hcontent => ?_⟩
        exact lines_cons hc (hlines content hcontent)

/-! Chunks. -/

/-- Lines that are not blank are one chunk. -/
theorem chunks_solid (offset : Nat) {ls : List (List Char)} (hne : ls ≠ [])
    (h : ∀ line ∈ ls, isBlankLine line = false) : chunks offset ls = [(offset, ls.flatten)] := by
  induction ls generalizing offset with
  | nil => exact absurd rfl hne
  | cons line ls ih =>
    rw [List.forall_mem_cons] at h
    cases ls with
    | nil => rw [chunks_single h.1, List.flatten_singleton]
    | cons next ls =>
      exact chunks_more h.1 (h.2 next List.mem_cons_self) (ih _ (List.cons_ne_nil _ _) h.2)

/-- Up to their last blank line, the lines of a text have chunks of their own. -/
theorem exists_chunks_before (offset : Nat) (front : List (List Char)) : ∃ (far near : List (List Char))
    (before : List (Nat × List Char)),
    front = far ++ near ∧ (∀ line ∈ near, isBlankLine line = false) ∧
      (∀ chunk ∈ before, StandsIn offset far.flatten chunk) ∧
      ∀ rest, chunks offset (far ++ rest) =
        before ++ chunks (offset + byteLength far.flatten) rest := by
  induction front using List.reverseRecOn with
  | nil => exact ⟨[], [], [], rfl, nofun, nofun, fun rest => rfl⟩
  | append_singleton front line ih =>
    cases hline : isBlankLine line with
    | true =>
      refine ⟨front ++ [line], [], chunks offset front, (List.append_nil _).symm, nofun,
        fun chunk hchunk => ?_, fun rest => ?_⟩
      · obtain ⟨before, after, hflat, hstart⟩ := standsIn_of_mem_chunks hchunk
        exact ⟨before, after ++ line, by simp [hflat], hstart⟩
      · rw [List.append_assoc, List.singleton_append, chunks_append_blank offset front hline,
          List.flatten_concat]
    | false =>
      obtain ⟨far, near, before, hfront, hnear, hbefore, hchunks⟩ := ih
      refine ⟨far, near ++ [line], before, ?_, ?_, hbefore, hchunks⟩
      · rw [hfront, List.append_assoc]
      · exact List.forall_mem_append.2 ⟨hnear, List.forall_mem_singleton.2 hline⟩

/-- From their first blank line on, the lines of a text have chunks of their own. -/
theorem exists_chunks_behind (back : List (List Char)) : ∃ (near far : List (List Char))
    (behind : List (Nat × List Char)),
    back = near ++ far ∧ (∀ line ∈ near, isBlankLine line = false) ∧
      (∀ chunk ∈ behind, StandsIn 0 far.flatten chunk) ∧
      ∀ offset ls, chunks offset (ls ++ far) = chunks offset ls ++
        behind.map (Prod.map (· + (offset + byteLength ls.flatten)) id) := by
  induction back with
  | nil =>
    exact ⟨[], [], [], rfl, nofun, nofun, fun offset ls => by simp⟩
  | cons line back ih =>
    cases hline : isBlankLine line with
    | true =>
      refine ⟨[], line :: back, chunks (0 + byteLength line) back, rfl, nofun,
        fun chunk hchunk => (standsIn_of_mem_chunks hchunk).behind line, fun offset ls => ?_⟩
      have hoffset : offset + byteLength (ls.flatten ++ line) =
          0 + byteLength line + (offset + byteLength ls.flatten) := by
        rw [byteLength_append]
        omega
      rw [chunks_append_blank offset ls hline, hoffset, chunks_add]
    | false =>
      obtain ⟨near, far, behind, hback, hnear, hbehind, hchunks⟩ := ih
      refine ⟨line :: near, far, behind, by rw [hback, List.cons_append], ?_, hbehind, hchunks⟩
      exact List.forall_mem_cons.2 ⟨hline, hnear⟩

/-- The chunks around a quoted text do not depend on what it says, but for where those behind
    it start. -/
theorem exists_chunks_quote (pre post : List Char) :
    ∃ (far lead tail later : List Char) (before behind : List (Nat × List Char)),
      pre = far ++ lead ∧ post = tail ++ later ∧
      (∀ chunk ∈ before, StandsIn 0 far chunk) ∧ (∀ chunk ∈ behind, StandsIn 0 later chunk) ∧
      ∀ content, '\n' ∉ content → chunks 0 (lines (pre ++ (quote content ++ post))) =
        before ++ (byteLength far, lead ++ (quote content ++ tail)) :: behind.map
          (Prod.map (· + (byteLength far + byteLength (lead ++ (quote content ++ tail)))) id) := by
  obtain ⟨front, left, right, back, rfl, rfl, hlines⟩ := exists_lines_quote pre post
  obtain ⟨far, near, before, rfl, hnear, hbefore, hchunks⟩ := exists_chunks_before 0 front
  obtain ⟨near', far', behind, rfl, hnear', hbehind, hchunks'⟩ := exists_chunks_behind back
  refine ⟨far.flatten, near.flatten ++ left, right ++ near'.flatten, far'.flatten, before, behind,
    by simp, by simp, hbefore, hbehind, fun content hcontent => ?_⟩
  have hsolid : isBlankLine (left ++ (quote content ++ right)) = false := by
    have hquote : isBlank '"' = false := by decide
    simp [isBlankLine, quote, hquote]
  have hrun : ∀ line ∈ near ++ (left ++ (quote content ++ right)) :: near', isBlankLine line = false :=
    List.forall_mem_append.2 ⟨hnear, List.forall_mem_cons.2 ⟨hsolid, hnear'⟩⟩
  have hflat : (near ++ (left ++ (quote content ++ right)) :: near').flatten =
      near.flatten ++ left ++ (quote content ++ (right ++ near'.flatten)) := by
    simp
  rw [hlines content hcontent, List.append_assoc, hchunks, ← List.cons_append, ← List.append_assoc,
    hchunks', chunks_solid _ (by simp) hrun, hflat, Nat.zero_add]
  rfl

/-! The ends of a paragraph. -/

theorem trimStart_quote (before after : List Char) :
    trimStart (before ++ '"' :: after) = trimStart before ++ '"' :: after := by
  have hquote : isBlank '"' = false := by decide
  rw [trimStart, trimStart, List.dropWhile_append, List.dropWhile_cons_of_neg (by simp [hquote])]
  split
  · next hnil => rw [List.isEmpty_iff.1 hnil, List.nil_append]
  · rfl

theorem trim_quote (before after : List Char) :
    trim (before ++ (quote content ++ after)) =
      trimStart before ++ (quote content ++ trimEnd after) := by
  have hend (cs : List Char) : trimEnd (cs ++ '"' :: after) = cs ++ '"' :: trimEnd after := by
    have hreverse := trimStart_quote after.reverse cs.reverse
    simp only [trimStart] at hreverse
    rw [trimEnd, trimEnd, List.reverse_append, List.reverse_cons, List.append_assoc,
      List.singleton_append, hreverse]
    simp
  have hfront : trimStart (before ++ (quote content ++ after)) =
      (trimStart before ++ '"' :: content) ++ '"' :: after := by
    simp [quote, trimStart_quote]
  rw [trim, hfront, hend]
  simp [quote]

theorem trimmedSpan_quote (offset : Nat) (before after : List Char) :
    trimmedSpan offset (before ++ (quote content ++ after)) =
      ⟨offset + byteLength (before.takeWhile isBlank),
        offset + byteLength before + (byteLength (quote content) + byteLength (trimEnd after))⟩ := by
  have hquote : isBlank '"' = false := by decide
  have htake : (before ++ (quote content ++ after)).takeWhile isBlank = before.takeWhile isBlank := by
    rw [List.takeWhile_append]
    split
    · next hlength =>
      rw [(List.takeWhile_prefix _).eq_of_length hlength]
      simp [quote, hquote]
    · rfl
  have hbefore : byteLength before =
      byteLength (before.takeWhile isBlank) + byteLength (trimStart before) := by
    rw [trimStart, ← byteLength_append, List.takeWhile_append_dropWhile]
  rw [trimmedSpan, htake, trim_quote, hbefore, byteLength_append, byteLength_append]
  simp only [Nat.add_assoc]

/-! Paragraphs. -/

/-- A span between cuts of a text is one of a longer text, further on by what stands before. -/
theorem sits_shift {cs : List Char} {span : Span} (before after : List Char)
    (h : span.Sits (Cut cs)) :
    (span.shift (byteLength before)).Sits (Cut (before ++ (cs ++ after))) := by
  obtain ⟨hle, hstart, hstop⟩ := h
  simp only [Span.shift, Nat.add_comm _ (byteLength before)]
  exact ⟨Nat.add_le_add_left hle _, hstart.within before after, hstop.within before after⟩

/-- The paragraphs around a quoted text do not depend on what it says, but for where those
    behind it start; and so does the paragraph with the quoted text, but for where it stops. -/
theorem exists_paragraphSpans_quote (pre post : List Char) :
    ∃ (before behind : List Span) (start stop : Nat),
      (∀ span ∈ before, span.Sits (Cut pre)) ∧ (∀ span ∈ behind, span.Sits (Cut post)) ∧
      Cut pre start ∧ Cut post stop ∧
      ∀ content, '\n' ∉ content → paragraphSpans (pre ++ (quote content ++ post)) =
        before ++ ⟨start, byteLength pre + (byteLength (quote content) + stop)⟩ ::
          behind.map (Span.shift (byteLength pre + byteLength (quote content))) := by
  obtain ⟨far, lead, tail, later, before, behind, rfl, rfl, hbefore, hbehind, hchunks⟩ :=
    exists_chunks_quote pre post
  refine ⟨before.map fun chunk => trimmedSpan chunk.1 chunk.2,
    behind.map fun chunk => (trimmedSpan chunk.1 chunk.2).shift (byteLength tail),
    byteLength (far ++ lead.takeWhile isBlank), byteLength (trimEnd tail),
    List.forall_mem_map.2 fun chunk hchunk => sits_shift [] lead (hbefore chunk hchunk).sits,
    List.forall_mem_map.2 fun chunk hchunk => ?_, ?_, ?_, fun content hcontent => ?_⟩
  · have hsits := sits_shift tail [] (hbehind chunk hchunk).sits
    rwa [List.append_nil] at hsits
  · refine ⟨far ++ lead.takeWhile isBlank, lead.dropWhile isBlank, ?_, rfl⟩
    rw [List.append_assoc, List.takeWhile_append_dropWhile]
  · obtain ⟨trailing, htrailing, -⟩ := exists_trimEnd tail
    exact ⟨trimEnd tail, trailing ++ later, by rw [← List.append_assoc, ← htrailing], rfl⟩
  · have hspan : trimmedSpan (byteLength far) (lead ++ (quote content ++ tail)) = _ :=
      trimmedSpan_quote (byteLength far) lead tail
    rw [paragraphSpans, hchunks content hcontent, List.map_append, List.map_cons, List.map_map,
      List.map_map]
    congr 2
    · refine hspan.trans ?_
      rw [Span.mk.injEq, byteLength_append, byteLength_append]
      omega
    · refine List.map_congr_left fun chunk _ => ?_
      have hshift := trimmedSpan_add
        (byteLength far + byteLength (lead ++ (quote content ++ tail))) chunk
      refine hshift.trans ?_
      simp only [Function.comp_apply, Span.shift, Span.mk.injEq, byteLength_append]
      omega

/-! Comments. -/

/-- Whether a line is a comment is settled before a quoted text in it starts. -/
theorem isCommentLine_quote (marker : Char) (before after : List Char) :
    isCommentLine marker (before ++ '"' :: after) = isCommentLine marker (before ++ ['"']) := by
  rw [isCommentLine, isCommentLine, trimStart_quote, trimStart_quote]
  cases trimStart before <;> rfl

/-- A quoted text stays when comments are blanked out, and so does what is around it, or a
    space stands where it starts. -/
theorem withoutComments_quote (marker : Char) (pre post : List Char) :
    ∃ before after, Blanked pre before ∧ Blanked post after ∧
      ((∀ content, '\n' ∉ content → withoutComments marker (pre ++ (quote content ++ post)) =
          before ++ (quote content ++ after)) ∨
        ∀ content, '\n' ∉ content → ∃ rest,
          withoutComments marker (pre ++ (quote content ++ post)) = before ++ ' ' :: rest) := by
  obtain ⟨front, left, right, back, rfl, rfl, hlines⟩ := exists_lines_quote pre post
  have hflat (content : List Char) (hcontent : '\n' ∉ content) :
      withoutComments marker (front.flatten ++ left ++ (quote content ++ (right ++ back.flatten))) =
        front.flatMap (withoutComment marker) ++
          (withoutComment marker (left ++ (quote content ++ right)) ++
            back.flatMap (withoutComment marker)) := by
    rw [withoutComments_eq_flatMap, hlines content hcontent, List.flatMap_append, List.flatMap_cons]
  have hsame (content : List Char) : isCommentLine marker (left ++ (quote content ++ right)) =
      isCommentLine marker (left ++ ['"']) := isCommentLine_quote ..
  have hfront := blanked_flatMap marker front
  have hback := blanked_flatMap marker back
  cases hcomment : isCommentLine marker (left ++ ['"']) with
  | true =>
    refine ⟨_, _, hfront.append (.blankOut left), (Blanked.blankOut right).append hback,
      .inr fun content hcontent => ⟨content.flatMap blankOut ++ (blankOut '"' ++
        (right.flatMap blankOut ++ back.flatMap (withoutComment marker))), ?_⟩⟩
    have hspace : blankOut '"' = [' '] := by decide
    rw [hflat content hcontent, withoutComment, hsame, hcomment]
    simp [quote, hspace]
  | false =>
    refine ⟨_, _, hfront.append (.refl left), (Blanked.refl right).append hback,
      .inl fun content hcontent => ?_⟩
    rw [hflat content hcontent, withoutComment, hsame, hcomment]
    simp

end Prose.Layout

namespace Prose

open Text Layout

/-! Kinds of tokens. -/

/-- The kinds of tokens do not depend on where the text stands. -/
theorem Token.map_kind_scanFrom (m n : Nat) (cs : List Char) :
    (scanFrom m cs).map kind = (scanFrom n cs).map kind := by
  have hzero (k : Nat) : (scanFrom k cs).map kind = (scanFrom 0 cs).map kind := by
    have hshift := scanFrom_shift (n := k) 0 cs
    rw [Nat.zero_add] at hshift
    rw [hshift, List.map_map]
    rfl
  rw [hzero m, hzero n]

theorem Token.map_kind_significant {ts us : List Token} (h : ts.map kind = us.map kind) :
    (significant ts).map kind = (significant us).map kind := by
  have hfilter (ts : List Token) : (significant ts).map kind =
      (ts.map kind).filter fun k => k != .blank && k != .stop := by
    rw [List.filter_map]
    rfl
  rw [hfilter, hfilter, h]

/-- Where a quoted text is one token, the kinds around it do not depend on what it says. -/
theorem Token.map_kind_scanFrom_quote {offset : Nat} {before content content' : List Char}
    {after : List Char} {t : Token} (ht : t ∈ scanFrom offset (before ++ (quote content ++ after)))
    (hstart : t.start = offset + byteLength before) (hcontent : '"' ∉ content)
    (hcontent' : '"' ∉ content') :
    (scanFrom offset (before ++ (quote content' ++ after))).map kind =
      (scanFrom offset (before ++ (quote content ++ after))).map kind := by
  have hquote (content : List Char) : quote content ++ after = '"' :: (content ++ '"' :: after) := by
    simp [quote]
  rw [hquote] at ht
  rw [hquote, hquote, scanFrom_requote ht hstart, scanFrom_requote ht hstart, scanFrom_quote hcontent,
    scanFrom_quote hcontent', List.map_append, List.map_append, List.map_cons, List.map_cons,
    map_kind_scanFrom]

namespace Reading

variable {r : Reading} {span : Span}

/-- The kinds of the tokens of each fragment of a paragraph. -/
def fragmentKinds (r : Reading) (span : Span) : List (List Kind) :=
  (Layout.sentences (r.tokens span)).map (List.map Token.kind)

theorem fragmentKinds_congr {r' : Reading} {span' : Span}
    (h : (r.tokens span).map Token.kind = (r'.tokens span').map Token.kind) :
    r.fragmentKinds span = r'.fragmentKinds span' :=
  map_kind_sentences h

/-- What stands around a text does not change the fragments of its paragraphs. -/
theorem fragmentKinds_within (h : r.Spans span) (before after : List Char) :
    (r.within before after).fragmentKinds (span.shift (byteLength before)) = r.fragmentKinds span := by
  apply fragmentKinds_congr
  rw [tokens_within h, List.map_map]
  rfl

theorem fragmentKinds_front {before : List Char} (h : { r with text := before }.Spans span)
    (after : List Char) : { r with text := before ++ after }.fragmentKinds span =
      { r with text := before }.fragmentKinds span :=
  fragmentKinds_within h [] after

theorem fragmentKinds_back {after : List Char} (h : { r with text := after }.Spans span)
    (before : List Char) :
    { r with text := before ++ after }.fragmentKinds (span.shift (byteLength before)) =
      { r with text := after }.fragmentKinds span := by
  have hwithin := fragmentKinds_within h before []
  rwa [within, List.append_nil] at hwithin

/-- The paragraph with a quoted text that is one token has the same fragments whatever the
    text says. -/
theorem fragmentKinds_quote {before after content content' : List Char} {start stop : Nat}
    {t : Token} (hstart : Cut before start) (hstop : Cut after stop) (hcontent : '"' ∉ content)
    (hcontent' : '"' ∉ content')
    (ht : t ∈ { r with text := before ++ (quote content ++ after) }.tokens
      ⟨start, byteLength before + (byteLength (quote content) + stop)⟩)
    (hplace : t.start = byteLength before) :
    { r with text := before ++ (quote content' ++ after) }.fragmentKinds
        ⟨start, byteLength before + (byteLength (quote content') + stop)⟩ =
      { r with text := before ++ (quote content ++ after) }.fragmentKinds
        ⟨start, byteLength before + (byteLength (quote content) + stop)⟩ := by
  obtain ⟨far, near, rfl, rfl⟩ := hstart
  obtain ⟨near', far', rfl, rfl⟩ := hstop
  have htokens (content : List Char) :
      { r with text := far ++ near ++ (quote content ++ (near' ++ far')) }.tokens
          ⟨byteLength far, byteLength (far ++ near) + (byteLength (quote content) + byteLength near')⟩ =
        Token.significant
          (Token.scanFrom (byteLength far) (near ++ (quote content ++ near'))) := by
    have hslice := slice_part far (near ++ (quote content ++ near')) far'
    simp only [byteLength_append, List.append_assoc] at hslice
    simp only [tokens, byteLength_append, List.append_assoc, Nat.add_assoc, hslice]
  rw [htokens] at ht
  rw [byteLength_append] at hplace
  apply fragmentKinds_congr
  rw [htokens, htokens]
  exact Token.map_kind_significant (Token.map_kind_scanFrom_quote (List.mem_filter.1 ht).1 hplace
    hcontent hcontent')

/-- A token of a paragraph stands in it. -/
theorem within_of_mem_tokens {t : Token} (h : r.Spans span) (ht : t ∈ r.tokens span) :
    (Span.ofToken t).Within span :=
  (covers_slice (.refl _) ⟨h.2.2, h.1, h.2.1⟩).within (Span.heldBy_ofToken ht)

/-- No token starts where the text that is read has a space. -/
theorem ne_space {before rest : List Char} {t : Token} (hspan : r.Spans span)
    (ht : t ∈ r.tokens span) (htext : r.text = before ++ ' ' :: rest) :
    t.start ≠ byteLength before := by
  intro hstart
  obtain ⟨hscan, hsignificant⟩ := List.mem_filter.1 ht
  have hslice := (allFrom_tokens hspan.1 hspan.2.1 hspan.2.2 t ht).slice
  have hboth := Bool.and_eq_true_iff.1 hsignificant
  obtain ⟨c, more, hkind, hlexeme⟩ := Token.lexeme_of_mem_scanFrom hscan (bne_iff_ne.1 hboth.2)
  have hsolid := (Token.endsSolid_lexeme (hkind ▸ bne_iff_ne.1 hboth.1)).1
  have hdrop := dropBytes_append before (' ' :: rest) 0
  rw [Nat.add_zero, dropBytes_zero] at hdrop
  rw [slice, htext, hstart, hdrop, hlexeme, takeBytes] at hslice
  split at hslice
  · cases hslice
  · rw [← (List.cons.inj hslice).1] at hsolid
    exact absurd hsolid (by decide)

/-- Around a quoted text that is one token, and in its paragraph, the fragments are the same
    whatever the text says. -/
theorem map_fragmentKinds_quote {pre post before after content content' : List Char} {t : Token}
    (hbefore : Blanked pre before) (hafter : Blanked post after) (hcontent : Quotable content)
    (hcontent' : Quotable content')
    (hspan : span ∈ paragraphSpans (pre ++ (quote content ++ post)))
    (hwithin : (Span.ofToken t).Within span)
    (ht : t ∈ { r with text := before ++ (quote content ++ after) }.tokens span)
    (hplace : Span.ofToken t = ⟨byteLength pre, byteLength pre + byteLength (quote content)⟩) :
    (paragraphSpans (pre ++ (quote content' ++ post))).map
        { r with text := before ++ (quote content' ++ after) }.fragmentKinds =
      (paragraphSpans (pre ++ (quote content ++ post))).map
        { r with text := before ++ (quote content ++ after) }.fragmentKinds := by
  obtain ⟨front, back, start, stop, hfront, hback, hstart, hstop, hspans⟩ :=
    exists_paragraphSpans_quote pre post
  have hlength : byteLength before = byteLength pre := hbefore.byteLength_eq
  have hbehind (content : List Char) : ∀ span ∈ back,
      { r with text := before ++ (quote content ++ after) }.fragmentKinds
        (span.shift (byteLength pre + byteLength (quote content))) =
      { r with text := after }.fragmentKinds span := by
    intro span hmem
    have hshift := fragmentKinds_back (r := r) (.of_sits hafter (hback span hmem))
      (before ++ quote content)
    rwa [List.append_assoc, byteLength_append, hlength] at hshift
  -- the paragraph with the token is the one with the quoted text
  obtain rfl : span = ⟨start, byteLength pre + (byteLength (quote content) + stop)⟩ := by
    rw [hspans content hcontent.2, List.mem_append, List.mem_cons, List.mem_map] at hspan
    simp only [hplace, Span.Within, byteLength_quote] at hwithin
    rcases hspan with hmem | rfl | ⟨span, -, rfl⟩
    · have hle := (hfront span hmem).2.2.le
      omega
    · rfl
    · simp only [Span.shift, byteLength_quote] at hwithin
      omega
  rw [hspans content hcontent.2, hspans content' hcontent'.2, List.map_append, List.map_append,
    List.map_cons, List.map_cons, List.map_map, List.map_map]
  congr 1
  · refine List.map_congr_left fun span hmem => ?_
    have hsits := Spans.of_sits (r := { r with text := before }) hbefore (hfront span hmem)
    rw [fragmentKinds_front hsits, fragmentKinds_front hsits]
  · congr 1
    · rw [← hlength] at ht hplace ⊢
      exact fragmentKinds_quote (hbefore.cut hstart) (hafter.cut hstop) hcontent.1 hcontent'.1 ht
        (Span.mk.inj hplace).1
    · refine List.map_congr_left fun span hmem => ?_
      exact (hbehind content' span hmem).trans (hbehind content span hmem).symm

end Reading

namespace Document

/-- The kinds of the tokens of each fragment of each paragraph of a text. -/
def fragmentKinds (settings : ReadingSettings) (text : String) : List (List (List Kind)) :=
  (paragraphSpans text.toList).map (Reading.ofText settings false text).fragmentKinds

/-- What a quoted text says has no influence on the paragraphs and fragments of a document. If
    the quoted text is one token of its paragraph, then with any other content in its place
    there are as many paragraphs, with the same fragments, of tokens of the same kinds. -/
theorem fragmentKinds_requote (settings : ReadingSettings) (pre post content content' : String)
    (hcontent : Quotable content.toList) (hcontent' : Quotable content'.toList)
    (hquoted : ∃ span ∈ paragraphSpans (pre ++ "\"" ++ content ++ "\"" ++ post).toList,
      ∃ t ∈ (Reading.ofText settings false (pre ++ "\"" ++ content ++ "\"" ++ post)).tokens span,
        t.kind = .stringLiteral ∧ Span.ofToken t =
          ⟨pre.utf8ByteSize, pre.utf8ByteSize + (content.utf8ByteSize + 2)⟩) :
    fragmentKinds settings (pre ++ "\"" ++ content' ++ "\"" ++ post) =
      fragmentKinds settings (pre ++ "\"" ++ content ++ "\"" ++ post) := by
  have hlist (content : String) : (pre ++ "\"" ++ content ++ "\"" ++ post).toList =
      pre.toList ++ (quote content.toList ++ post.toList) := by
    simp [quote]
  obtain ⟨before, after, hbefore, hafter, htext⟩ :=
    withoutComments_quote settings.commentMarker pre.toList post.toList
  obtain ⟨span, hspan, t, ht, -, hplace⟩ := hquoted
  have hspans : (Reading.ofText settings false _).Spans span :=
    Reading.spans_of_mem_paragraphSpans hspan
  rw [← byteLength_toList, ← byteLength_toList, ← byteLength_quote] at hplace
  rcases htext with htext | hspace
  · have hreading (content : String) (h : Quotable content.toList) :
        Reading.ofText settings false (pre ++ "\"" ++ content ++ "\"" ++ post) =
          ⟨settings, false, before ++ (quote content.toList ++ after)⟩ := by
      rw [Reading.ofText, hlist, htext _ h.2]
    have hwithin := Reading.within_of_mem_tokens hspans ht
    rw [hreading content hcontent] at ht
    rw [hlist] at hspan
    rw [fragmentKinds, fragmentKinds, hreading content hcontent, hreading content' hcontent', hlist,
      hlist]
    exact Reading.map_fragmentKinds_quote (r := ⟨settings, false, []⟩) hbefore hafter hcontent
      hcontent' hspan hwithin ht hplace
  · -- a comment has no tokens
    obtain ⟨rest, hrest⟩ := hspace content.toList hcontent.2
    rw [← hlist] at hrest
    have hstart : t.start = byteLength before :=
      (Span.mk.inj hplace).1.trans hbefore.byteLength_eq.symm
    exact absurd hstart (Reading.ne_space hspans ht hrest)

set_option maxRecDepth 4096 in
/-- A terminator, a comment and a keyword in a quoted text: one paragraph of one fragment, as
    without them. -/
theorem fragmentKinds_requote_terminator :
    Quotable "a".toList ∧ Quotable ". (; \\ if".toList ∧
      fragmentKinds {} "put \". (; \\ if\" into a x." =
        [[[.putWord, .stringLiteral, .intoWord, .indefiniteArticle, .identifier]]] := by
  have hplain : Quotable "a".toList := by decide
  have hmarks : Quotable ". (; \\ if".toList := by decide
  have hsame := fragmentKinds_requote {} "put " " into a x." "a" ". (; \\ if" hplain hmarks
    ⟨⟨0, 17⟩, by decide, ⟨.stringLiteral, "\"a\"", 4, 7⟩, by cbv; exact .tail _ (.head _), rfl, rfl⟩
  exact ⟨hplain, hmarks, hsame.trans (by cbv)⟩

end Document

end Prose
