import Mathlib.Data.List.Basic
import Prose.Proofs.Document.Locality

/- Where the paragraphs of a text are. Every maximal run of lines that are not blank is one
   paragraph, without the blanks at its ends, and there are no other paragraphs. So every
   character that is no blank stands in exactly one of them. -/
namespace Prose.Layout

open Prose.Text

/-! Runs of lines. -/

/-- Some lines in a row, with the lines before them and behind them. -/
structure Run where
  before : List (List Char)
  body : List (List Char)
  after : List (List Char)

namespace Run

/-- The run with more lines in front of those before it. -/
def behind (lead : List (List Char)) (r : Run) : Run := { r with before := lead ++ r.before }

/-- From the start of the first line of a run to the end of the last. -/
def extent (r : Run) : Span :=
  ⟨byteLength r.before.flatten, byteLength r.before.flatten + byteLength r.body.flatten⟩

/-- A run of lines that are not blank, with no such line next to it. -/
structure IsMaximal (ls : List (List Char)) (r : Run) : Prop where
  split : ls = r.before ++ (r.body ++ r.after)
  ne_nil : r.body ≠ []
  solid : ∀ line ∈ r.body, isBlankLine line = false
  opens : ∀ line ∈ r.before.getLast?, isBlankLine line = true
  closes : ∀ line ∈ r.after.head?, isBlankLine line = true

variable {ls lead rest : List (List Char)} {line : List Char} {r : Run}

theorem IsMaximal.behind (h : r.IsMaximal rest)
    (hlead : r.before = [] → ∀ line ∈ lead.getLast?, isBlankLine line = true) :
    (r.behind lead).IsMaximal (lead ++ rest) where
  split := by rw [h.split, Run.behind, List.append_assoc]
  ne_nil := h.ne_nil
  solid := h.solid
  opens := by
    simp only [Run.behind]
    by_cases hbefore : r.before = []
    · rw [hbefore, List.append_nil]
      exact hlead hbefore
    · rw [List.getLast?_append_of_ne_nil _ hbefore]
      exact h.opens
  closes := h.closes

/-- The runs of lines with a blank one in front of them. -/
theorem isMaximal_blank (hline : isBlankLine line = true) :
    r.IsMaximal (line :: rest) ↔ ∃ s : Run, s.IsMaximal rest ∧ r = s.behind [line] := by
  constructor
  · intro h
    obtain ⟨before, run, after⟩ := r
    cases before with
    | nil =>
      obtain ⟨first, run, rfl⟩ := List.exists_cons_of_ne_nil h.ne_nil
      obtain ⟨rfl, -⟩ := List.cons.inj h.split
      rw [h.solid line List.mem_cons_self] at hline
      cases hline
    | cons first before =>
      obtain ⟨rfl, hsplit⟩ := List.cons.inj h.split
      refine ⟨⟨before, run, after⟩, ⟨hsplit, h.ne_nil, h.solid, ?_, h.closes⟩, rfl⟩
      cases before with
      | nil => exact nofun
      | cons => exact h.opens
  · rintro ⟨s, hs, rfl⟩
    have hbehind : (s.behind [line]).IsMaximal ([line] ++ rest) :=
      hs.behind fun _ last hlast => Option.some.inj hlast ▸ hline
    exact hbehind

/-- The lines of a run say how far it goes. -/
theorem takeWhile_solid {run after : List (List Char)}
    (hrun : ∀ line ∈ run, isBlankLine line = false)
    (hafter : ∀ line ∈ after.head?, isBlankLine line = true) :
    (run ++ after).takeWhile (fun line => !isBlankLine line) = run :=
  Token.takeWhile_run (fun line hline => by simp [hrun line hline])
    fun line hline => by simp [hafter line hline]

/-- The runs of lines that start with one. -/
theorem isMaximal_run {run : List (List Char)} (hne : run ≠ [])
    (hrun : ∀ line ∈ run, isBlankLine line = false)
    (hrest : ∀ line ∈ rest.head?, isBlankLine line = true) :
    r.IsMaximal (run ++ rest) ↔
      r = ⟨[], run, rest⟩ ∨ ∃ s : Run, s.IsMaximal rest ∧ r = s.behind run := by
  constructor
  · intro h
    obtain ⟨before, body, after⟩ := r
    have hsplit : run ++ rest = before ++ (body ++ after) := h.split
    rcases List.append_eq_append_iff.1 hsplit with ⟨more, rfl, hmore⟩ | ⟨more, rfl, hmore⟩
    · refine .inr ⟨⟨more, body, after⟩,
        ⟨hmore, h.ne_nil, h.solid, fun line hline => ?_, h.closes⟩, rfl⟩
      have hlast : line ∈ (run ++ more).getLast? := by
        rwa [List.getLast?_append_of_ne_nil _ (by rintro rfl; cases hline)]
      exact h.opens line hlast
    · left
      rcases List.eq_nil_or_concat before with rfl | ⟨before, last, rfl⟩
      · -- both runs go as far as the lines are not blank
        have hbody : body = more :=
          calc body = (body ++ after).takeWhile fun line => !isBlankLine line :=
                (takeWhile_solid h.solid h.closes).symm
            _ = (more ++ rest).takeWhile fun line => !isBlankLine line := by rw [hmore]
            _ = more := takeWhile_solid hrun hrest
        obtain rfl := hbody
        rw [List.append_cancel_left hmore]
        rfl
      · have hblank : isBlankLine last = true := h.opens last (by simp)
        rw [hrun last (by simp)] at hblank
        cases hblank
  · rintro (rfl | ⟨s, hs, rfl⟩)
    · exact ⟨rfl, hne, hrun, nofun, hrest⟩
    · refine hs.behind fun hbefore => ?_
      -- the first line of the rest would be a blank one of the run
      obtain ⟨first, later, hbody⟩ := List.exists_cons_of_ne_nil hs.ne_nil
      have hblank : isBlankLine first = true := hrest first (by rw [hs.split, hbefore, hbody]; rfl)
      rw [hs.solid first (by rw [hbody]; exact List.mem_cons_self)] at hblank
      cases hblank

/-- Lines are blank ones and runs of others, in any order. -/
theorem induction {P : List (List Char) → Prop} (nil : P [])
    (blank : ∀ line rest, isBlankLine line = true → P rest → P (line :: rest))
    (run : ∀ run rest, run ≠ [] → (∀ line ∈ run, isBlankLine line = false) →
      (∀ line ∈ rest.head?, isBlankLine line = true) → P rest → P (run ++ rest))
    (ls : List (List Char)) : P ls := by
  match ls with
  | [] => exact nil
  | line :: rest =>
    by_cases hline : isBlankLine line = true
    · exact blank line rest hline (induction nil blank run rest)
    · have hsplit := List.takeWhile_append_dropWhile (p := fun line => !isBlankLine line) (l := rest)
      have hlength := List.length_dropWhile_le (fun line => !isBlankLine line) rest
      rw [← hsplit, ← List.cons_append]
      refine run _ _ (List.cons_ne_nil line _) (List.forall_mem_cons.2 ⟨by simpa using hline, ?_⟩) ?_
        (induction nil blank run _)
      · exact fun later hlater => by simpa using List.mem_takeWhile_imp hlater
      · intro later hlater
        have hstop := List.head?_dropWhile_not (fun line => !isBlankLine line) rest
        rw [Option.mem_def.1 hlater] at hstop
        simpa using hstop
termination_by ls.length

end Run

/-! Chunks are runs. -/

variable {ls : List (List Char)}

theorem chunks_run (offset : Nat) {run rest : List (List Char)} (hne : run ≠ [])
    (hrun : ∀ line ∈ run, isBlankLine line = false)
    (hrest : ∀ line ∈ rest.head?, isBlankLine line = true) :
    chunks offset (run ++ rest) =
      (offset, run.flatten) :: chunks (offset + byteLength run.flatten) rest := by
  induction run generalizing offset with
  | nil => exact absurd rfl hne
  | cons line run ih =>
    rw [List.forall_mem_cons] at hrun
    cases run with
    | nil =>
      rw [List.flatten_singleton]
      cases rest with
      | nil => exact chunks_single hrun.1
      | cons next rest => exact chunks_end hrun.1 (hrest next rfl)
    | cons next run =>
      have later := ih (offset + byteLength line) (List.cons_ne_nil next run) hrun.2
      rw [Nat.add_assoc, ← byteLength_append, ← List.flatten_cons] at later
      exact chunks_more hrun.1 (hrun.2 next List.mem_cons_self) later

/-- The chunks of some lines are their maximal runs, one behind the other. -/
theorem exists_runs (ls : List (List Char)) : ∃ runs : List Run,
    (∀ r, r ∈ runs ↔ r.IsMaximal ls) ∧
    (runs.Pairwise fun r s => r.before ++ r.body <+: s.before) ∧
    ∀ offset, chunks offset ls =
      runs.map fun r => (offset + byteLength r.before.flatten, r.body.flatten) := by
  have hbehind (lead : List (List Char)) {runs : List Run}
      (h : runs.Pairwise fun r s => r.before ++ r.body <+: s.before) :
      (runs.map (Run.behind lead)).Pairwise fun r s => r.before ++ r.body <+: s.before := by
    refine List.pairwise_map.2 (h.imp fun hprefix => ?_)
    rw [Run.behind, Run.behind, List.append_assoc]
    exact (List.prefix_append_right_inj lead).2 hprefix
  have hchunks (offset : Nat) (lead : List (List Char)) (runs : List Run) :
      (runs.map fun r =>
        (offset + byteLength lead.flatten + byteLength r.before.flatten, r.body.flatten)) =
      (runs.map (Run.behind lead)).map fun r =>
        (offset + byteLength r.before.flatten, r.body.flatten) := by
    rw [List.map_map]
    refine List.map_congr_left fun r _ => ?_
    simp [Run.behind, Nat.add_assoc]
  induction ls using Run.induction with
  | nil =>
    exact ⟨[], fun r => ⟨nofun, fun h => absurd h.split (by simp [h.ne_nil])⟩, .nil, fun _ => rfl⟩
  | blank line rest hline ih =>
    obtain ⟨runs, hmem, horder, hruns⟩ := ih
    refine ⟨runs.map (Run.behind [line]), fun r => ?_, hbehind [line] horder, fun offset => ?_⟩
    · rw [Run.isMaximal_blank hline, List.mem_map]
      exact exists_congr fun s => and_congr (hmem s) eq_comm
    · rw [chunks_blank hline, hruns, ← hchunks, List.flatten_singleton]
  | run run rest hne hrun hrest ih =>
    obtain ⟨runs, hmem, horder, hruns⟩ := ih
    refine ⟨⟨[], run, rest⟩ :: runs.map (Run.behind run), fun r => ?_,
      List.pairwise_cons.2 ⟨List.forall_mem_map.2 fun s _ => ?_, hbehind run horder⟩, fun offset => ?_⟩
    · rw [Run.isMaximal_run hne hrun hrest, List.mem_cons, List.mem_map]
      exact or_congr_right (exists_congr fun s => and_congr (hmem s) eq_comm)
    · exact List.prefix_append run s.before
    · rw [chunks_run offset hne hrun hrest, hruns, List.map_cons, ← hchunks]
      rfl

/-- A character that is no blank stands in a maximal run. -/
theorem exists_isMaximal {before after : List Char} {c : Char}
    (hsplit : ls.flatten = before ++ c :: after) (hc : isBlank c = false) :
    ∃ r : Run, r.IsMaximal ls ∧ ∃ left right,
      r.body.flatten = left ++ c :: right ∧ before = r.before.flatten ++ left := by
  have hbehind (lead : List (List Char)) {rest : List (List Char)} {r : Run}
      {before left right : List Char} (hr : (r.behind lead).IsMaximal (lead ++ rest))
      (hbody : r.body.flatten = left ++ c :: right) (hbefore : before = r.before.flatten ++ left) :
      ∃ s : Run, s.IsMaximal (lead ++ rest) ∧ ∃ left right,
        s.body.flatten = left ++ c :: right ∧ lead.flatten ++ before = s.before.flatten ++ left := by
    refine ⟨r.behind lead, hr, left, right, hbody, ?_⟩
    rw [Run.behind, List.flatten_append, List.append_assoc, hbefore]
  induction ls using Run.induction generalizing before with
  | nil => exact absurd hsplit (by simp)
  | blank line rest hline ih =>
    rw [List.flatten_cons] at hsplit
    rcases append_eq_append_cons hsplit with ⟨more, rfl, hmore⟩ | ⟨more, rfl, -⟩
    · obtain ⟨r, hr, left, right, hbody, hbefore⟩ := ih hmore
      have hmaximal := (Run.isMaximal_blank hline).2 ⟨r, hr, rfl⟩
      have hfound := hbehind [line] hmaximal hbody hbefore
      rwa [List.flatten_singleton] at hfound
    · rw [isBlankLine, List.all_eq_true] at hline
      rw [hline c (by simp)] at hc
      cases hc
  | run run rest hne hrun hrest ih =>
    rw [List.flatten_append] at hsplit
    rcases append_eq_append_cons hsplit with ⟨more, rfl, hmore⟩ | ⟨more, hmore, -⟩
    · obtain ⟨r, hr, left, right, hbody, hbefore⟩ := ih hmore
      exact hbehind run ((Run.isMaximal_run hne hrun hrest).2 (.inr ⟨r, hr, rfl⟩)) hbody hbefore
    · have hmaximal := (Run.isMaximal_run hne hrun hrest).2 (.inl rfl)
      exact ⟨⟨[], run, rest⟩, hmaximal, before, more, hmore, rfl⟩

/-! Blanks at the ends of a run. -/

section Trimmed

variable {cs lead trail : List Char} {c : Char}

theorem startsSolid_trimStart (h : ∃ c ∈ cs, isBlank c = false) : StartsSolid (trimStart cs) := by
  obtain ⟨c, hc, hsolid⟩ := h
  have hne : trimStart cs ≠ [] := fun hnil => by
    rw [List.dropWhile_eq_nil_iff.1 hnil c hc] at hsolid
    cases hsolid
  obtain ⟨first, rest, hfirst⟩ := List.exists_cons_of_ne_nil hne
  have hhead := List.head?_dropWhile_not isBlank cs
  rw [show cs.dropWhile isBlank = first :: rest from hfirst] at hhead
  exact ⟨first, rest, hfirst, hhead⟩

theorem endsSolid_trimEnd (h : ∃ c ∈ cs, isBlank c = false) : EndsSolid (trimEnd cs) := by
  obtain ⟨c, rest, hrest, hc⟩ : StartsSolid (trimStart cs.reverse) :=
    startsSolid_trimStart (by simpa using h)
  refine ⟨rest.reverse, c, ?_, hc⟩
  rw [trimEnd, show cs.reverse.dropWhile isBlank = c :: rest from hrest, List.reverse_cons]

theorem solid_trim (h : ∃ c ∈ cs, isBlank c = false) :
    StartsSolid (trim cs) ∧ EndsSolid (trim cs) := by
  have hstart := startsSolid_trimStart h
  obtain ⟨c, rest, hrest, hc⟩ := id hstart
  have hend : EndsSolid (trim cs) := endsSolid_trimEnd ⟨c, hrest ▸ List.mem_cons_self, hc⟩
  obtain ⟨trailing, htrim, -⟩ := exists_trimEnd (trimStart cs)
  rw [htrim] at hstart
  exact ⟨hstart.of_append hend.ne_nil, hend⟩

/-- Blanks before a text are no line of their own where no line is blank. -/
theorem solid_lines_drop (hlead : ∀ c ∈ lead, isBlank c = true)
    (h : ∀ line ∈ lines (lead ++ cs), isBlankLine line = false) :
    ∀ line ∈ lines cs, isBlankLine line = false := by
  induction lead with
  | nil => exact h
  | cons c lead ih =>
    rw [List.forall_mem_cons] at hlead
    refine ih hlead.2 ?_
    rw [List.cons_append] at h
    by_cases hc : c = '\n'
    · rw [lines, if_pos hc, List.forall_mem_cons] at h
      exact h.2
    · rcases hrest : lead ++ cs with _ | ⟨d, rest⟩
      · exact List.forall_mem_nil _
      · obtain ⟨line, later, hlines⟩ := exists_lines (d :: rest) (List.cons_ne_nil d rest)
        rw [hrest, lines_cons hc hlines, List.forall_mem_cons, isBlankLine, List.all_cons, hlead.1,
          Bool.true_and] at h
        rw [hlines]
        exact List.forall_mem_cons.2 h

/-- The same for blanks behind it. -/
theorem solid_lines_take (htrail : ∀ c ∈ trail, isBlank c = true)
    (h : ∀ line ∈ lines (cs ++ trail), isBlankLine line = false) :
    ∀ line ∈ lines cs, isBlankLine line = false := by
  induction trail using List.reverseRecOn with
  | nil => rwa [List.append_nil] at h
  | append_singleton trail c ih =>
    rw [List.forall_mem_append, List.forall_mem_singleton] at htrail
    refine ih htrail.1 ?_
    rw [← List.append_assoc] at h
    rcases lines_concat (cs ++ trail) c with hlines | ⟨ls, last, hlines, hlines'⟩
    · rw [hlines] at h
      exact fun line hline => h line (List.mem_append_left _ hline)
    · rw [hlines', List.forall_mem_append, List.forall_mem_singleton, isBlankLine, List.all_append,
        List.all_cons, htrail.2, List.all_nil, Bool.and_true, Bool.and_true] at h
      rw [hlines]
      exact List.forall_mem_append.2 ⟨h.1, List.forall_mem_singleton.2 h.2⟩

theorem solid_lines_trim (h : ∀ line ∈ lines cs, isBlankLine line = false) :
    ∀ line ∈ lines (trim cs), isBlankLine line = false := by
  obtain ⟨trailing, htrim, htrailing⟩ := exists_trim cs
  rw [htrim] at h
  exact solid_lines_take htrailing (solid_lines_drop (fun _ => List.mem_takeWhile_imp) h)

end Trimmed

/-! Paragraphs. -/

/-- A span of a text between two cuts that starts and ends with no blank, and that no blank
    line is in. -/
structure IsParagraph (text : List Char) (span : Span) : Prop where
  nonempty : span.start < span.stop
  cuts : Cut text span.start ∧ Cut text span.stop
  starts : StartsSolid (slice text span.start span.stop)
  ends : EndsSolid (slice text span.start span.stop)
  solid : ∀ line ∈ lines (slice text span.start span.stop), isBlankLine line = false

variable {text : List Char} {r : Run}

/-- A run without the blanks at its ends. -/
def Run.span (r : Run) : Span := trimmedSpan (byteLength r.before.flatten) r.body.flatten

theorem Run.IsMaximal.standsIn (h : r.IsMaximal (lines text)) :
    StandsIn 0 text (byteLength r.before.flatten, r.body.flatten) := by
  refine ⟨r.before.flatten, r.after.flatten, ?_, (Nat.zero_add _).symm⟩
  rw [← List.flatten_append, ← List.flatten_append, ← h.split, flatten_lines]

/-- The lines of a run are lines of their own. -/
theorem Run.IsMaximal.lines_flatten (h : r.IsMaximal (lines text)) :
    lines r.body.flatten = r.body := by
  have hlines := areLines_lines text
  rw [h.split] at hlines
  have hbody : r.body.Sublist (r.before ++ (r.body ++ r.after)) :=
    (List.sublist_append_left ..).trans (List.sublist_append_right ..)
  exact (hlines.sublist hbody).lines_flatten

theorem Run.IsMaximal.isParagraph (h : r.IsMaximal (lines text)) : IsParagraph text r.span := by
  obtain ⟨before, after, htext, hspan⟩ := h.standsIn.exists_trim
  have hslice : slice text r.span.start r.span.stop = trim r.body.flatten := by
    rw [Run.span, hspan, htext, Nat.zero_add]
    exact slice_part before _ after
  obtain ⟨line, hline⟩ := List.exists_mem_of_ne_nil _ h.ne_nil
  obtain ⟨c, hc, hcsolid⟩ := exists_nonblank (h.solid line hline)
  obtain ⟨hstart, hend⟩ := solid_trim ⟨c, List.mem_flatten_of_mem hline hc, hcsolid⟩
  have hsits := h.standsIn.sits
  refine ⟨?_, hsits.2, hslice ▸ hstart, hslice ▸ hend, ?_⟩
  · have hlength : byteLength (trim r.body.flatten) ≠ 0 := mt byteLength_eq_zero_iff.1 hend.ne_nil
    rw [Run.span, hspan]
    exact Nat.lt_add_of_pos_right (Nat.pos_of_ne_zero hlength)
  · rw [hslice]
    refine solid_lines_trim ?_
    rw [h.lines_flatten]
    exact h.solid

theorem Run.span_within (r : Run) : r.span.Within r.extent := by
  obtain ⟨trailing, htrim, -⟩ := exists_trim r.body.flatten
  have hlength := congrArg byteLength htrim
  rw [byteLength_append, byteLength_append] at hlength
  simp only [Span.Within, Run.span, Run.extent, trimmedSpan]
  omega

/-- What is trimmed away of a run are blanks. -/
theorem Run.span_covers {left right : List Char} {c : Char}
    (hsplit : r.body.flatten = left ++ c :: right) (hc : isBlank c = false) :
    r.span.start ≤ byteLength r.before.flatten + byteLength left ∧
      byteLength r.before.flatten + byteLength left + c.utf8Size ≤ r.span.stop := by
  have hnone {cs before after : List Char} (hblank : ∀ d ∈ cs, isBlank d = true)
      (hcs : cs = before ++ c :: after) : False := by
    have hmem : isBlank c = true := hblank c (by simp [hcs])
    rw [hc] at hmem
    cases hmem
  obtain ⟨trailing, htrim, htrailing⟩ := exists_trim r.body.flatten
  rcases append_eq_append_cons (htrim.symm.trans hsplit) with ⟨more, rfl, hmore⟩ | ⟨more, hlead, -⟩
  · rcases append_eq_append_cons hmore with ⟨more', -, htrail⟩ | ⟨more', hpart, -⟩
    · exact (hnone htrailing htrail).elim
    · have hlength := congrArg byteLength hpart
      rw [byteLength_append, byteLength_cons] at hlength
      simp only [Run.span, trimmedSpan, byteLength_append]
      omega
  · exact (hnone (fun _ => List.mem_takeWhile_imp) hlead).elim

theorem paragraphSpans_eq (text : List Char) : ∃ runs : List Run,
    (∀ r, r ∈ runs ↔ r.IsMaximal (lines text)) ∧
    (runs.Pairwise fun r s => r.before ++ r.body <+: s.before) ∧
    paragraphSpans text = runs.map Run.span := by
  obtain ⟨runs, hmem, horder, hchunks⟩ := exists_runs (lines text)
  refine ⟨runs, hmem, horder, ?_⟩
  rw [paragraphSpans, hchunks, List.map_map]
  refine List.map_congr_left fun r _ => ?_
  simp [Run.span]

/-- The spans of the paragraphs stand one behind the other. -/
theorem pairwise_paragraphSpans (text : List Char) :
    (paragraphSpans text).Pairwise fun s t => s.stop ≤ t.start := by
  obtain ⟨runs, -, horder, hspans⟩ := paragraphSpans_eq text
  rw [hspans]
  refine List.pairwise_map.2 (horder.imp fun {r s} hprefix => ?_)
  obtain ⟨more, hmore⟩ := hprefix
  have hlength := congrArg (fun ls => byteLength ls.flatten) hmore
  simp only [List.flatten_append, byteLength_append] at hlength
  have hstop := r.span_within.2
  have hstart := s.span_within.1
  simp only [Run.extent] at hstop hstart
  omega

/-- One of two spans ends before the other starts. -/
def Apart (s t : Span) : Prop := s.stop ≤ t.start ∨ t.stop ≤ s.start

instance : Std.Symm Apart := ⟨fun _ _ => Or.symm⟩

/-- Paragraphs are runs of lines that are not blank. The spans of the paragraphs of a text lie
    in its maximal runs, one in each and in their order. They are disjoint parts of the text
    that start and end with no blank and have no blank line in them, and every character that
    is no blank stands in exactly one of them. -/
theorem paragraphSpans_runs (text : List Char) :
    (∃ runs : List Run, (∀ r, r ∈ runs ↔ r.IsMaximal (lines text)) ∧
      (runs.Pairwise fun r s => r.before ++ r.body <+: s.before) ∧
      List.Forall₂ (fun span r => span.Within r.extent) (paragraphSpans text) runs) ∧
    (∀ span ∈ paragraphSpans text, IsParagraph text span) ∧
    ((paragraphSpans text).Pairwise fun s t => s.stop ≤ t.start) ∧
    ∀ before c after, text = before ++ c :: after → isBlank c = false →
      ∃! span, span ∈ paragraphSpans text ∧
        span.start ≤ byteLength before ∧ byteLength before + c.utf8Size ≤ span.stop := by
  obtain ⟨runs, hmem, horder, hspans⟩ := paragraphSpans_eq text
  have hpairwise := pairwise_paragraphSpans text
  refine ⟨⟨runs, hmem, horder, ?_⟩, ?_, hpairwise, ?_⟩
  · rw [hspans, List.forall₂_map_left_iff, List.forall₂_same]
    exact fun r _ => r.span_within
  · rw [hspans]
    exact List.forall_mem_map.2 fun r hr => ((hmem r).1 hr).isParagraph
  · intro before c after hsplit hc
    obtain ⟨r, hr, left, right, hbody, rfl⟩ := exists_isMaximal ((flatten_lines text).trans hsplit) hc
    have hcovers := r.span_covers hbody hc
    rw [← byteLength_append] at hcovers
    have hspan : r.span ∈ paragraphSpans text := hspans ▸ List.mem_map_of_mem ((hmem r).2 hr)
    refine ⟨r.span, ⟨hspan, hcovers⟩, fun other hother => ?_⟩
    -- two spans with the character in them would not be one behind the other
    by_contra hne
    have hapart : (paragraphSpans text).Pairwise Apart := hpairwise.imp .inl
    have hsize := c.utf8Size_pos
    rcases hapart.forall hother.1 hspan hne with hle | hle
    · omega
    · omega

example : paragraphSpans " a\r\nb \n\t\r\n\n c".toList = [⟨1, 5⟩, ⟨12, 13⟩] := by cbv

end Prose.Layout
