import Prose.Proofs.Loose.Nested
import Prose.Proofs.Tree.Names

/- Names of loose declarations. Types, slots and what slots stand for start with a character
   that is no blank, and so they have names. A variable or a shape is named by anything
   between its article and its verb, and where there are only blanks, by nothing. -/
namespace Prose.LooseDeclaration

open Text Pattern Node

variable {α : Type} {text w : List Char} {groups : Groups} {part : Part}

/-! What a group noted. -/

theorem run_group_cons {item : Pattern} {back : List Pattern} {place : Place} {next : Next α} :
    (all (group part item :: back)).run place groups next = item.run place groups fun after later =>
      (all back).run after ((part, place.offset, after.offset) :: later) next := rfl

/-- A part that is noted once, and nowhere behind that, is what the match took there. -/
theorem lookup_of_group (front back : List Pattern) {item : Pattern}
    (hback : part ∉ (all back).noted.map Prod.fst)
    (h : (all (front ++ group part item :: back)).groups? text = some groups) :
    ∃ before v behind rest, text = before ++ (v ++ (behind ++ rest)) ∧ (all front).Takes before ∧
      item.Takes v ∧ (all back).Takes behind ∧
      groups.lookup part = some (byteLength before, byteLength before + byteLength v) := by
  obtain ⟨after, hrun⟩ := groups?_eq_some h
  rw [run_all_append] at hrun
  obtain ⟨before, rest, earlier, htext, hbefore, -, hrun⟩ := takes_run hrun
  simp only [run_group_cons] at hrun
  obtain ⟨v, rest', inner, hrest, hv, -, hrun⟩ := takes_run hrun
  obtain ⟨behind, rest'', later, hrest', hbehind, hnoted, hr⟩ := takes_run hrun
  obtain ⟨-, rfl⟩ := Prod.mk.inj (Option.some.inj hr)
  have hlater : later.lookup part = none := by
    rw [List.lookup_eq_none_iff]
    intro extent hextent
    obtain ⟨other, -, -, -, hother, -⟩ := hnoted extent hextent
    rw [bne_iff_ne]
    rintro rfl
    exact hback (List.mem_map.2 ⟨_, hother, rfl⟩)
  refine ⟨before, v, behind, rest'', ?_, hbefore, hv, hbehind, ?_⟩
  · rw [show text = before ++ rest from htext, show rest = v ++ rest' from hrest,
      show rest' = behind ++ rest'' from hrest']
  · rw [List.lookup_append, hlater]
    simp [Place.after]

/-! Texts that are named. -/

theorem ne_nil_of_something (h : something.Takes w) : w ≠ [] := by
  obtain ⟨first, more, rfl, hfirst, -⟩ := takes_seq h
  obtain ⟨c, rfl, -⟩ := takes_char hfirst
  simp

theorem startsSolid_solid (h : solid.Takes w) : StartsSolid w := by
  obtain ⟨first, more, rfl, hfirst, -⟩ := takes_seq h
  obtain ⟨c, rfl, hc⟩ := takes_char hfirst
  exact ⟨c, more, rfl, by simpa using hc⟩

theorem isName_of_startsSolid (h : StartsSolid w) : IsName (collapse w) := by
  obtain ⟨c, rest, rfl, hc⟩ := h
  exact isName_collapse List.mem_cons_self hc

theorem nameOf_eq {before v after : List Char} (htext : text = before ++ (v ++ after))
    (hlookup : groups.lookup .name = some (byteLength before, byteLength before + byteLength v)) :
    nameOf text groups = collapse v := by
  simp only [nameOf, piece?, hlookup, Option.map_some]
  rw [htext, slice_part]

/-- The name of a declaration, between its article and its verb. If it is empty, there are
    only blanks between them: some before the name, some for the name and some behind it. -/
theorem isName_nameOf {opening verb : Pattern} {later : List Pattern}
    (hlater : Part.name ∉ (all (verb :: later)).noted.map Prod.fst)
    (h : (all (opening :: blanks :: group .name something :: blanks :: verb :: later)).groups? text =
      some groups) :
    IsName (nameOf text groups) ∨ nameOf text groups = "" ∧ opening.Nameless verb text := by
  obtain ⟨before, v, behind, rest, htext, hbefore, hv, hbehind, hlookup⟩ :=
    lookup_of_group [opening, blanks] (blanks :: verb :: later) hlater h
  rw [nameOf_eq htext hlookup]
  by_cases hblank : ∀ c ∈ v, isBlank c = true
  · right
    obtain ⟨first, u, rfl, hfirst, hu⟩ := takes_all_cons hbefore
    obtain ⟨left, u, rfl, hleft, hu⟩ := takes_all_cons hu
    obtain rfl := takes_empty hu
    obtain ⟨right, u, rfl, hright, hu⟩ := takes_all_cons hbehind
    obtain ⟨taken, u, rfl, htaken, -⟩ := takes_all_cons hu
    have hlength := List.length_pos_iff.2 (takes_blanks hleft).1
    have hlength' := List.length_pos_iff.2 (takes_blanks hright).1
    have hsome := List.length_pos_iff.2 (ne_nil_of_something hv)
    refine ⟨collapse_blank hblank, first, left ++ (v ++ right), taken, u ++ rest, ?_, hfirst, ?_, ?_,
      htaken⟩
    · rw [htext]
      simp
    · simp only [List.length_append]
      omega
    · rw [List.forall_mem_append, List.forall_mem_append]
      exact ⟨(takes_blanks hleft).2, hblank, (takes_blanks hright).2⟩
  · left
    obtain ⟨c, hc, hsolid⟩ : ∃ c ∈ v, isBlank c = false := by simpa using hblank
    exact isName_collapse hc hsolid

/-! Slots and types. -/

/-- A part of which all items start with no blank has a name. -/
theorem isName_piece {p : Pattern} {start : Nat} {piece : Piece}
    (hp : ∀ item, (part, item) ∈ p.noted → ∀ {w}, item.Takes w → StartsSolid w)
    (hgroups : p.groups? text = some groups) (hpiece : piece? text start groups part = some piece) :
    IsName (collapse piece.text) := by
  obtain ⟨extent, hlookup, rfl⟩ := piece?_eq_some hpiece
  obtain ⟨w, rest, rfl, item, before, v, after, hitem, rfl, hv, hextent⟩ :=
    notes_of_lookup hgroups hlookup
  obtain rfl : extent = (byteLength before, byteLength before + byteLength v) := by
    simpa using hextent
  have hslice : slice (before ++ (v ++ after) ++ rest) (byteLength before)
      (byteLength before + byteLength v) = v := by
    rw [List.append_assoc, List.append_assoc, slice_part]
  show IsName (collapse (slice _ _ _))
  rw [hslice]
  exact isName_of_startsSolid (hp item hitem hv)

section Trees

variable {fallback : Bool} {whole : List Char} {span : Span} {s : Stmt}

theorem named_type {p : Pattern} {type : Piece}
    (hp : ∀ item, (Part.type, item) ∈ p.noted → ∃ greedy, item = plainWords greedy)
    (hgroups : p.groups? text = some groups) (htype : piece? text span.start groups .type = some type) :
    (Node.typeName (typeNameOf text groups type)).Named fallback whole := by
  refine named_leaf rfl (List.forall_mem_singleton.2 (isName_piece (fun item hitem => ?_) hgroups htype))
  obtain ⟨greedy, rfl⟩ := hp item hitem
  exact fun h => (solid_plainWords h).1

theorem noted_slotPattern : slotPattern.noted =
    [(.article, alt indefinite (word "some")), (.name, solid), (.aliasFor, solid)] := rfl

theorem named_slot {start : Nat} {s : Slot} (h : slot start text = .ok s) :
    (Node.slot s).Named fallback whole := by
  rw [slot] at h
  split at h
  · cases h
  · next groups hgroups =>
    obtain rfl := Except.ok.inj h
    refine named_leaf rfl (List.forall_mem_cons.2 ⟨?_, fun name hname => ?_⟩)
    · obtain ⟨before, v, behind, rest, htext, -, hv, -, hlookup⟩ :=
        lookup_of_group [article, blanks] _ (by decide) hgroups
      rw [nameOf_eq htext hlookup]
      exact isName_of_startsSolid (startsSolid_solid hv)
    · obtain ⟨piece, hpiece, rfl⟩ := Option.map_eq_some_iff.1 (Option.mem_toList.1 hname)
      refine isName_piece (fun item hitem => ?_) hgroups hpiece
      obtain rfl : item = solid := by simpa [noted_slotPattern] using hitem
      exact startsSolid_solid

theorem named_slotList {list : Piece} {slots : List Slot} (h : slotList list = .ok slots) :
    ∀ s ∈ slots, (Node.slot s).Named fallback whole := by
  intro s hs
  obtain ⟨piece, -, hslot⟩ := exists_mem_of_forall₂ (mapM_eq_ok_iff.1 h) hs
  exact named_slot hslot

/-- What is read of a part of a text by its outline is named, or empty where there are blanks
    in the place of its name. -/
theorem named_parse (hwhole : slice whole span.start span.stop = text)
    (hs : (parse text span).toOption = some s) : (Node.stmt s).Named true whole := by
  cases outlined_parse hs with
  | @variableDeclaration groups type value hgroups htype hvalue =>
    apply named_of_names_eq_nil rfl
    refine List.forall_mem_singleton.2 (named_of_children (List.forall_mem_singleton.2 ?_)
      (List.forall_mem_cons.2 ⟨?_, List.forall_mem_map.2 fun e he => ?_⟩))
    · exact (isName_nameOf (by decide) hgroups).imp_right fun h =>
        ⟨h.1, .declaration rfl (hwhole.symm ▸ h.2)⟩
    · exact named_type (fun item hitem => ⟨false, by simpa [noted_variablePattern] using hitem⟩)
        hgroups htype
    · obtain ⟨piece, -, hread⟩ := hvalue e (Option.mem_toList.1 he)
      exact named_leaf (literal_eq_ok hread).2 nofun
  | slots hgroups hlist hslots =>
    refine named_shape ?_ nofun (named_slotList hslots)
    exact (isName_nameOf (by decide) hgroups).imp_right fun h =>
      ⟨h.1, .shape rfl (hwhole.symm ▸ h.2.imp .second)⟩
  | baseAndSlots hgroups hlist hslots =>
    refine named_shape ?_ (fun t ht => ?_) (named_slotList hslots)
    · exact (isName_nameOf (by decide) hgroups).imp_right fun h =>
        ⟨h.1, .shape rfl (hwhole.symm ▸ h.2.imp .first)⟩
    · obtain ⟨type, htype, rfl⟩ := Option.map_eq_some_iff.1 (Option.mem_toList.1 ht)
      exact named_type (fun item hitem => ⟨false, by simpa [noted_baseAndSlotsPattern] using hitem⟩)
        hgroups htype
  | base hgroups htype =>
    refine named_shape ?_ (List.forall_mem_singleton.2 ?_) nofun
    · exact (isName_nameOf (by decide) hgroups).imp_right fun h =>
        ⟨h.1, .shape rfl (hwhole.symm ▸ h.2.imp .first)⟩
    · exact named_type (fun item hitem => ⟨true, by simpa [noted_basePattern] using hitem⟩)
        hgroups htype

end Trees

end Prose.LooseDeclaration
