import Prose.Proofs.Document.Contribution
import Prose.Proofs.Pattern.Blanks

/- The parts of a loose declaration. Types are words, which neither start nor end with a
   blank. A slot starts with an article, and where a separator follows it, the blanks before
   the separator belong to the separator. -/
namespace Prose.LooseDeclaration

open Text Pattern

variable {α : Type} {w : List Char}

/-! Words. -/

/-- A word starts with some form of its first letter. -/
theorem startsSolid_word {letter : Char} {letters : List Char} {s : String} (h : (word s).Takes w)
    (hs : s.toList = letter :: letters) (hletter : isBlank letter = false) : StartsSolid w := by
  rw [word, hs, List.map_cons] at h
  obtain ⟨u, v, rfl, hu, -⟩ := takes_all_cons h
  obtain ⟨c, rfl, hc⟩ := takes_char hu
  exact ⟨c, v, rfl, isBlank_of_isFormOf hletter hc⟩

theorem startsSolid_article (h : article.Takes w) : StartsSolid w := by
  rcases takes_alt (takes_group h) with h | h
  · obtain ⟨u, v, rfl, hu, -⟩ := takes_seq h
    exact (startsSolid_word hu (s := "a") rfl (by decide)).append v
  · exact startsSolid_word h (s := "some") rfl (by decide)

theorem solid_plainWord (h : plainWord.Takes w) : w ≠ [] ∧ ∀ c ∈ w, isBlank c = false := by
  obtain ⟨u, v, rfl, hu, hv⟩ := takes_seq h
  obtain ⟨c, rfl, hc⟩ := takes_char hu
  obtain ⟨ws, rfl, hws⟩ := takes_many hv
  refine ⟨by simp, List.forall_mem_cons.2 ⟨isBlank_of_isBasicLetter hc, fun d hd => ?_⟩⟩
  obtain ⟨t, ht, hd⟩ := List.mem_flatten.1 hd
  obtain ⟨e, rfl, he⟩ := takes_char (hws t ht)
  obtain rfl := List.mem_singleton.1 hd
  rw [Bool.or_eq_true, beq_iff_eq] at he
  rcases he with he | rfl
  · exact isBlank_of_isWordChar he
  · decide

/-- Plain words neither start nor end with a blank. -/
theorem solid_plainWords {greedy : Bool} (h : (plainWords greedy).Takes w) :
    StartsSolid w ∧ EndsSolid w := by
  obtain ⟨u, v, rfl, hu, hv⟩ := takes_seq h
  obtain ⟨hne, hu⟩ := solid_plainWord hu
  obtain ⟨ws, rfl, hws⟩ := takes_many hv
  refine ⟨(startsSolid_of_forall hne hu).append _, ?_⟩
  rcases List.eq_nil_or_concat ws with rfl | ⟨ws, last, rfl⟩
  · simpa using endsSolid_of_forall hne hu
  · obtain ⟨gap, word, rfl, -, hword⟩ := takes_seq (hws last (by simp))
    obtain ⟨hword, hsolid⟩ := solid_plainWord hword
    rw [List.concat_eq_append, List.flatten_append, List.flatten_singleton, ← List.append_assoc,
      ← List.append_assoc]
    exact (endsSolid_of_forall hword hsolid).prepend _

/-- A slot starts with its article. -/
theorem startsSolid_slotPattern (h : slotPattern.Takes w) : StartsSolid w := by
  obtain ⟨u, v, rfl, hu, -⟩ := takes_all_cons h
  exact (startsSolid_article hu).append v

/-! Slots and the separators between them. -/

variable {place : Place} {groups : Groups} {next : Next α} {rest : List Char} {c : Char}

/-- A separator takes the blanks before it. -/
theorem isSome_separator_cons (hrest : place.rest = c :: rest) (hc : isBlank c = true)
    (h : (separatorPattern.run (place.after [c] rest) groups next).isSome = true) :
    (separatorPattern.run place groups next).isSome = true := by
  rw [separatorPattern, run_alt, Option.isSome_or, Bool.or_eq_true] at h ⊢
  rcases h with h | h
  · exact .inl (isSome_maybeBlanks_cons hrest hc h)
  · exact .inr (isSome_blanks_cons hrest hc h)

theorem ne_nil_of_separator (h : separatorPattern.Takes w) : w ≠ [] := by
  rcases takes_alt h with h | h
  · obtain ⟨gap, v, rfl, -, hv⟩ := takes_all_cons h
    obtain ⟨comma, u, rfl, hcomma, -⟩ := takes_all_cons hv
    obtain ⟨d, rfl, -⟩ := takes_char hcomma
    simp
  · obtain ⟨gap, v, rfl, hgap, -⟩ := takes_all_cons h
    obtain ⟨first, more, rfl, hfirst, -⟩ := takes_seq hgap
    obtain ⟨d, rfl, -⟩ := takes_char hfirst
    simp

theorem matchAt_separator {after : Place} (h : separatorPattern.matchAt place = some (after, groups)) :
    ∃ w rest, w ≠ [] ∧ place.rest = w ++ rest ∧ after = place.after w rest := by
  obtain ⟨w, rest, later, hrest, hw, -, hr⟩ := takes_run h
  obtain ⟨hafter, -⟩ := Prod.mk.inj (Option.some.inj hr)
  exact ⟨w, rest, ne_nil_of_separator hw, hrest, hafter.symm⟩

/-- A part of a text that stands between separators: it ends with no blank, or it is all up
    to the end of the text. -/
def Between (text : List Char) (extent : Nat × Nat) : Prop :=
  ∃ before part after, text = before ++ (part ++ after) ∧
    extent = (byteLength before, byteLength before + byteLength part) ∧
    (part = [] ∨ EndsSolid part ∨ after = [])

/-- The parts of a text from a first offset on, given the extents of the separators. -/
def extents (first : Nat) (separators : List (Nat × Nat)) (stop : Nat) : List (Nat × Nat) :=
  (first :: separators.map Prod.snd).zip (separators.map Prod.fst ++ [stop])

theorem extents_cons (first : Nat) (separator : Nat × Nat) (separators : List (Nat × Nat)) (stop : Nat) :
    extents first (separator :: separators) stop =
      (first, separator.1) :: extents separator.2 separators stop := rfl

/-- How far the search for separators has come in a text: behind the last separator a part has
    been passed over, and no separator starts at a blank that ends the part. -/
structure PassedOver (text before part : List Char) (place : Place) : Prop where
  text_eq : text = before ++ (part ++ place.rest)
  offset_eq : place.offset = byteLength before + byteLength part
  no_separator : ∀ init c, part = init ++ [c] → isBlank c = true →
    separatorPattern.matchAt ⟨c :: place.rest, byteLength before + byteLength init⟩ = none

namespace PassedOver

variable {text before part : List Char}

theorem start (text : List Char) : PassedOver text [] [] ⟨text, 0⟩ :=
  ⟨rfl, rfl, fun init _ hinit => absurd hinit (by simp)⟩

/-- Where no separator starts, the part goes on. -/
theorem step (h : PassedOver text before part place) (hrest : place.rest = c :: rest)
    (hnone : separatorPattern.matchAt place = none) :
    PassedOver text before (part ++ [c]) ⟨rest, place.offset + c.utf8Size⟩ where
  text_eq := by rw [h.text_eq, hrest, List.append_assoc, List.singleton_append]
  offset_eq := by simp [h.offset_eq, Nat.add_assoc]
  no_separator init d hinit hd := by
    obtain ⟨rfl, hlast⟩ := List.append_inj' hinit rfl
    obtain rfl := List.singleton_inj.1 hlast
    rw [← hnone, ← h.offset_eq, ← hrest]

/-- A separator ends the part, and the next part starts behind it. -/
theorem pass (h : PassedOver text before part place) (hw : place.rest = w ++ rest) :
    PassedOver text (before ++ (part ++ w)) [] (place.after w rest) where
  text_eq := by
    rw [h.text_eq, hw]
    simp [Place.after]
  offset_eq := by simp [Place.after, h.offset_eq, Nat.add_assoc]
  no_separator init _ hinit := absurd hinit (by simp)

/-- A part ends with no blank if a separator starts behind it, since the separator would have
    taken the blank. -/
theorem endsSolid (h : PassedOver text before part place) {found : Place × Groups}
    (hmatch : separatorPattern.matchAt place = some found) : part = [] ∨ EndsSolid part := by
  rcases List.eq_nil_or_concat part with rfl | ⟨init, c, rfl⟩
  · exact .inl rfl
  · right
    rw [List.concat_eq_append] at h ⊢
    refine ⟨init, c, rfl, ?_⟩
    rw [Bool.eq_false_iff]
    intro hc
    have hnone := h.no_separator init c rfl hc
    have hplace : Place.after ⟨c :: place.rest, byteLength before + byteLength init⟩ [c] place.rest =
        place := by
      have hoffset : byteLength before + byteLength init + byteLength [c] = place.offset := by
        rw [h.offset_eq, byteLength_append, Nat.add_assoc]
      rw [Place.after, hoffset]
    have hsome : (separatorPattern.matchAt
        ⟨c :: place.rest, byteLength before + byteLength init⟩).isSome = true := by
      refine isSome_separator_cons rfl hc ?_
      rw [hplace, show separatorPattern.run place [] _ = _ from hmatch]
      rfl
    rw [hnone] at hsome
    cases hsome

theorem between (h : PassedOver text before part place) {found : Place × Groups}
    (hmatch : separatorPattern.matchAt place = some found) :
    Between text (byteLength before, place.offset) :=
  ⟨before, part, place.rest, h.text_eq, by rw [h.offset_eq], (h.endsSolid hmatch).imp_right .inl⟩

/-- At the end of the text the part is all that is left. -/
theorem between_end (h : PassedOver text before part place) (hrest : place.rest = []) :
    Between text (byteLength before, byteLength text) := by
  have htext : text = before ++ part := by rw [h.text_eq, hrest, List.append_nil]
  refine ⟨before, part, [], by rw [htext, List.append_nil], ?_, .inr (.inr rfl)⟩
  rw [htext, byteLength_append]

/-- What stands between the separators that are found from a place on. -/
theorem between_matchesFrom (h : PassedOver text before part place) :
    ∀ extent ∈ extents (byteLength before) (separatorPattern.matchesFrom place) (byteLength text),
      Between text extent := by
  induction hlength : place.rest.length using Nat.strongRecOn generalizing place before part with
  | ind length ih =>
    rw [matchesFrom]
    split
    · next hrest => exact List.forall_mem_singleton.2 (h.between_end hrest)
    · next c rest hrest =>
      split
      · next after groups hmatch =>
        obtain ⟨w, behind, hne, hw, rfl⟩ := matchAt_separator hmatch
        have hpos := List.length_pos_iff.2 hne
        have hshorter : (place.after w behind).rest.length < place.rest.length := by
          simp only [hw, Place.after, List.length_append]
          omega
        have hnext : (place.after w behind).offset = byteLength (before ++ (part ++ w)) := by
          rw [(h.pass hw).offset_eq, byteLength_nil, Nat.add_zero]
        rw [if_pos hshorter, extents_cons, hnext]
        refine List.forall_mem_cons.2 ⟨h.between hmatch, ?_⟩
        exact ih _ (hlength ▸ hshorter) (h.pass hw) rfl
      · next hnone =>
        have hshorter : rest.length < length := by
          rw [← hlength, hrest]
          exact Nat.lt_succ_self _
        exact ih _ hshorter (h.step hrest hnone) rfl

end PassedOver

theorem slotTexts_eq (text : List Char) :
    slotTexts text = (extents 0 (separatorPattern.matchesFrom ⟨text, 0⟩) (byteLength text)).map
      fun extent => (extent.1, slice text extent.1 extent.2) := rfl

/-- A part of a text that neither starts nor ends with a blank, by its extent. -/
def SolidPart (text : List Char) (extent : Nat × Nat) : Prop :=
  ∃ before part after, text = before ++ (part ++ after) ∧
    extent = (byteLength before, byteLength before + byteLength part) ∧
    StartsSolid part ∧ EndsSolid part

theorem startsSolid_of_slot {start : Nat} {text : List Char} {s : Slot} (h : slot start text = .ok s) :
    StartsSolid text ∧ s.span = ⟨start, start + byteLength text⟩ := by
  rw [slot] at h
  split at h
  · cases h
  · next groups hgroups =>
    obtain rfl := Except.ok.inj h
    obtain ⟨found, hfound, -⟩ := Option.map_eq_some_iff.1 hgroups
    obtain ⟨w, rest, -, htext, hw, -, -⟩ := takes_run hfound
    refine ⟨?_, rfl⟩
    rw [show text = w ++ rest from htext]
    exact (startsSolid_slotPattern hw).append rest

/-- Slots are solid parts of their list. -/
theorem solidPart_of_slotList {list : Piece} {slots : List Slot} (hlist : Something list.text)
    (h : slotList list = .ok slots) : ∀ s ∈ slots, ∃ extent, SolidPart list.text extent ∧
      s.span = ⟨list.span.start + extent.1, list.span.start + extent.2⟩ := by
  intro s hs
  obtain ⟨piece, hpiece, hslot⟩ : ∃ piece ∈ slotTexts list.text,
      slot (list.span.start + piece.1) piece.2 = .ok s :=
    exists_mem_of_forall₂ (mapM_eq_ok_iff.1 h) hs
  rw [slotTexts_eq] at hpiece
  obtain ⟨extent, hextent, rfl⟩ := List.mem_map.1 hpiece
  have hbetween := (PassedOver.start list.text).between_matchesFrom extent hextent
  obtain ⟨before, part, after, htext, rfl, hend⟩ := hbetween
  have hslice : slice list.text (byteLength before) (byteLength before + byteLength part) = part := by
    rw [htext, slice_part]
  simp only [hslice] at hslot
  obtain ⟨hstart, hspan⟩ := startsSolid_of_slot hslot
  refine ⟨_, ⟨before, part, after, htext, rfl, hstart, ?_⟩, by rw [hspan, Nat.add_assoc]⟩
  rcases hend with rfl | hend | rfl
  · obtain ⟨c, rest, hnil, -⟩ := hstart
    exact absurd hnil (by simp)
  · exact hend
  · rw [List.append_nil] at htext
    rw [htext] at hlist
    exact hlist.endsSolid hstart

end Prose.LooseDeclaration
