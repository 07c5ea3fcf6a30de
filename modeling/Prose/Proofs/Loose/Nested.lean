import Prose.Proofs.Loose.Outcome
import Prose.Proofs.Loose.Pieces
import Prose.Proofs.Token.Edges

/- Loose declarations are well nested. Where a sentence is read by its outline, the type, the
   value and the slots are parts of its text that neither start nor end with a blank. -/
namespace Prose.LooseDeclaration

open Text Pattern

variable {α : Type} {place : Place} {groups : Groups} {next : Next α} {r : α} {part : Part}

/-! Where groups stand. -/

/-- A text has something at an extent. -/
def SomethingAt (text : List Char) (extent : Nat × Nat) : Prop :=
  ∃ before taken after, text = before ++ (taken ++ after) ∧
    extent = (byteLength before, byteLength before + byteLength taken) ∧ Something taken

/-- Something behind some patterns and blanks, with nothing but blanks behind it. -/
theorem run_something_last (front : List Pattern) (hnext : OnlyBlanksLeft next)
    (h : (all (front ++ [blanks, group part something])).run place groups next = some r) :
    ∃ before taken rest later, place.rest = before ++ (taken ++ rest) ∧ Something taken ∧
      next (place.after (before ++ taken) rest) ((part, place.offset + byteLength before,
        place.offset + byteLength before + byteLength taken) :: later) = some r := by
  rw [run_all_append] at h
  obtain ⟨w, rest, more, hrest, -, -, hgo⟩ := takes_run h
  obtain ⟨gap, taken, behind, hbehind, hr, htaken⟩ := run_blanks_something hnext hgo
  refine ⟨w ++ gap, taken, behind, more ++ groups, ?_, htaken, ?_⟩
  · rw [hrest, show rest = gap ++ (taken ++ behind) from hbehind, List.append_assoc]
  · simp only [Place.after, byteLength_append, Nat.add_assoc] at hr ⊢
    exact hr

theorem groups?_eq_some {p : Pattern} {text : List Char} (h : p.groups? text = some groups) :
    ∃ after, p.run ⟨text, 0⟩ [] (fun after groups => some (after, groups)) = some (after, groups) := by
  obtain ⟨⟨after, later⟩, hfound, rfl⟩ := Option.map_eq_some_iff.1 h
  exact ⟨after, hfound⟩

/-- What is looked up was noted for an item of the pattern. -/
theorem notes_of_lookup {p : Pattern} {text : List Char} {extent : Nat × Nat}
    (h : p.groups? text = some groups) (hlookup : groups.lookup part = some extent) :
    ∃ w rest, text = w ++ rest ∧ p.Notes 0 w (part, extent) := by
  obtain ⟨after, hrun⟩ := groups?_eq_some h
  obtain ⟨w, rest, more, htext, -, hnoted, hr⟩ := takes_run hrun
  rw [List.append_nil] at hr
  obtain ⟨-, rfl⟩ := Prod.mk.inj (Option.some.inj hr)
  obtain ⟨l, l', rfl, -⟩ := List.lookup_eq_some_iff.1 hlookup
  exact ⟨w, rest, htext, hnoted _ (by simp)⟩

section Groups

variable {text : List Char} {extent : Nat × Nat}

/-- A type is solid where all that a pattern notes as one are plain words. -/
theorem solidPart_type {p : Pattern}
    (hp : ∀ item, (Part.type, item) ∈ p.noted → ∃ greedy, item = plainWords greedy)
    (h : p.groups? text = some groups) (hlookup : groups.lookup .type = some extent) :
    SolidPart text extent := by
  obtain ⟨w, rest, rfl, item, before, v, after, hitem, rfl, hv, hextent⟩ := notes_of_lookup h hlookup
  obtain ⟨greedy, rfl⟩ := hp item hitem
  obtain ⟨hstart, hend⟩ := solid_plainWords hv
  refine ⟨before, v, after ++ rest, by simp, ?_, hstart, hend⟩
  simpa using hextent

/-- The groups of a whole text. -/
theorem onlyBlanksLeft_whole : OnlyBlanksLeft fun place groups =>
    (all [maybeBlanks, stop]).run place groups fun after groups => some (after, groups) :=
  onlyBlanksLeft_end fun _ _ => rfl

/-- A slot list at the end of a text is something. -/
theorem somethingAt_slots (front : List Pattern)
    (h : (all (front ++ [blanks, group .slots something, maybeBlanks, stop])).groups? text = some groups)
    (hlookup : groups.lookup .slots = some extent) : SomethingAt text extent := by
  obtain ⟨after, hrun⟩ := groups?_eq_some h
  rw [show front ++ [blanks, group .slots something, maybeBlanks, stop] =
    (front ++ [blanks, group .slots something]) ++ [maybeBlanks, stop] by simp, run_all_append] at hrun
  obtain ⟨before, taken, rest, later, htext, htaken, hend⟩ :=
    run_something_last front onlyBlanksLeft_whole hrun
  obtain ⟨-, hr⟩ := run_end hend
  obtain ⟨-, rfl⟩ := Prod.mk.inj (Option.some.inj hr)
  refine ⟨before, taken, rest, htext, ?_, htaken⟩
  simpa using hlookup.symm

/-- A value at the end of a text is something. -/
theorem somethingAt_value (front middle : List Pattern)
    (hfront : ∀ item, (Part.value, item) ∉ (all front).noted)
    (h : (all (front ++ [maybe (all (middle ++ [blanks, group .value something])), maybeBlanks,
      stop])).groups? text = some groups)
    (hlookup : groups.lookup .value = some extent) : SomethingAt text extent := by
  obtain ⟨after, hrun⟩ := groups?_eq_some h
  rw [run_all_append] at hrun
  obtain ⟨w, rest, more, htext, -, hnoted, hgo⟩ := takes_run hrun
  rw [List.append_nil] at hgo
  have hgo : (maybe (all (middle ++ [blanks, group .value something]))).run
      (Place.after ⟨text, 0⟩ w rest) more (fun place groups =>
        (all [maybeBlanks, stop]).run place groups fun after groups => some (after, groups)) =
      some (after, groups) := hgo
  rw [maybe, run_alt, Option.or_eq_some_iff] at hgo
  rcases hgo with hgo | ⟨-, hgo⟩
  · obtain ⟨before, taken, behind, later', hrest, htaken, hend⟩ :=
      run_something_last middle onlyBlanksLeft_whole hgo
    obtain ⟨-, hr⟩ := run_end hend
    obtain ⟨-, rfl⟩ := Prod.mk.inj (Option.some.inj hr)
    refine ⟨w ++ before, taken, behind, ?_, ?_, htaken⟩
    · rw [show text = w ++ rest from htext, show rest = before ++ (taken ++ behind) from hrest,
        List.append_assoc]
    · simpa [Place.after] using hlookup.symm
  · -- no value was read, so none was noted
    obtain ⟨-, hr⟩ := run_end hgo
    obtain ⟨-, rfl⟩ := Prod.mk.inj (Option.some.inj hr)
    obtain ⟨l, l', rfl, -⟩ := List.lookup_eq_some_iff.1 hlookup
    obtain ⟨item, -, -, -, hitem, -⟩ := hnoted (.value, extent) (by simp)
    exact absurd hitem (hfront item)

end Groups

/-! Trees. -/

section Trees

variable {P : Nat → Prop} {text : List Char} {span : Span} {s : Stmt}

/-- Solid parts of the text are parts of its span. -/
theorem within_solid (h : span.Covers P text) {extent : Nat × Nat} (hpart : SolidPart text extent) :
    Span.Sits P ⟨span.start + extent.1, span.start + extent.2⟩ ∧
      Span.Within ⟨span.start + extent.1, span.start + extent.2⟩ span := by
  obtain ⟨before, part, after, htext, rfl, hstart, hend⟩ := hpart
  have hlength : byteLength text = byteLength before + (byteLength part + byteLength after) := by
    rw [htext, byteLength_append, byteLength_append]
  refine ⟨⟨Nat.add_le_add_left (Nat.le_add_right ..) _, ?_, ?_⟩, Nat.le_add_right .., ?_⟩
  · exact h.edge _ (htext ▸ hstart.edge before after)
  · exact h.edge _ (htext ▸ hend.edge before after)
  · rw [h.stop]
    simp only
    omega

theorem nested_leaf {n : Node} (hsits : n.span.Sits P) (hchildren : n.children = [])
    (hstatements : n.statements = [] := by rfl) : n.Nested P := by
  refine .intro hsits ?_ ?_ ?_
  · rw [hchildren]
    exact nofun
  · rw [hstatements]
    exact .nil
  · rw [hchildren]
    exact nofun

/-- What covers the whole text, and has one node below it that covers it, too. -/
theorem nested_whole {n child : Node} (hsits : span.Sits P) (hn : n.span = span)
    (hchild : child.span = span) (hnested : child.Nested P) (hchildren : n.children = [child])
    (hstatements : n.statements = [] := by rfl) : n.Nested P := by
  refine .intro (hn ▸ hsits) ?_ ?_ ?_
  · rw [hchildren, hn, List.forall_mem_singleton, hchild]
    exact .refl span
  · rw [hstatements]
    exact .nil
  · rw [hchildren]
    exact List.forall_mem_singleton.2 hnested

theorem piece?_eq_some {start : Nat} {piece : Piece} (h : piece? text start groups part = some piece) :
    ∃ extent, groups.lookup part = some extent ∧
      piece = ⟨slice text extent.1 extent.2, ⟨start + extent.1, start + extent.2⟩⟩ := by
  obtain ⟨extent, hlookup, rfl⟩ := Option.map_eq_some_iff.1 h
  exact ⟨extent, hlookup, rfl⟩

theorem literal_blank {piece : Piece} {c : Char} (hpiece : piece.text = [c]) (hc : isBlank c = true)
    (e : Expr) : literal piece ≠ .ok e := by
  have htrim : trim piece.text = [] := by simp [hpiece, trim, trimStart, trimEnd, hc]
  have hnone : readInteger (String.ofList []) = none := by decide
  simp [literal, htrim, hnone]

/-- A literal covers its piece. -/
theorem literal_eq_ok {piece : Piece} {e : Expr} (h : literal piece = .ok e) :
    e.span = piece.span ∧ (Node.expr e).children = [] := by
  simp only [literal] at h
  split at h
  · obtain rfl := Except.ok.inj h
    exact ⟨rfl, rfl⟩
  · split at h
    · obtain rfl := Except.ok.inj h
      exact ⟨rfl, rfl⟩
    · cases h

theorem nested_shape {name : String} {base : Option TypeName} {slots : Option (List Slot)}
    (hspan : span.Sits P) (hbase : ∀ t ∈ base.toList, t.span.Sits P ∧ t.span.Within span)
    (hslots : ∀ slot ∈ slots.getD [], slot.span.Sits P ∧ slot.span.Within span) :
    (Node.stmt (.shapeDeclaration ⟨name, base, slots, span⟩ span)).Nested P := by
  have hshape : (Node.shape ⟨name, base, slots, span⟩).Nested P := by
    refine .intro hspan ?_ .nil ?_ <;>
      refine List.forall_mem_append.2 ⟨List.forall_mem_map.2 fun t ht => ?_,
        List.forall_mem_map.2 fun slot hslot => ?_⟩
    · exact (hbase t ht).2
    · exact (hslots slot hslot).2
    · exact nested_leaf (hbase t ht).1 rfl
    · exact nested_leaf (hslots slot hslot).1 rfl
  exact nested_whole hspan rfl rfl hshape rfl

/-- The type of a declaration stands in its text. -/
theorem within_type (h : span.Covers P text) {p : Pattern} {type : Piece}
    (hp : ∀ item, (Part.type, item) ∈ p.noted → ∃ greedy, item = plainWords greedy)
    (hgroups : p.groups? text = some groups) (htype : piece? text span.start groups .type = some type) :
    type.span.Sits P ∧ type.span.Within span := by
  obtain ⟨extent, hlookup, rfl⟩ := piece?_eq_some htype
  exact within_solid h (solidPart_type hp hgroups hlookup)

/-- Slots of a list in the text stand in the text. -/
theorem within_slots (h : span.Covers P text) {extent : Nat × Nat} (hlist : SomethingAt text extent)
    {slots : List Slot}
    (hslots : slotList ⟨slice text extent.1 extent.2,
      ⟨span.start + extent.1, span.start + extent.2⟩⟩ = .ok slots) :
    ∀ slot ∈ slots, slot.span.Sits P ∧ slot.span.Within span := by
  intro slot hslot
  obtain ⟨before, taken, after, htext, rfl, htaken⟩ := hlist
  have hslice : slice text (byteLength before) (byteLength before + byteLength taken) = taken := by
    rw [htext, slice_part]
  rw [hslice] at hslots
  obtain ⟨extent, ⟨before', part, after', hpart, rfl, hsolid⟩, hspan⟩ :=
    solidPart_of_slotList htaken hslots slot hslot
  have hpart : taken = before' ++ (part ++ after') := hpart
  have hsolid : SolidPart text (byteLength (before ++ before'),
      byteLength (before ++ before') + byteLength part) :=
    ⟨before ++ before', part, after' ++ after, by rw [htext, hpart]; simp, rfl, hsolid⟩
  have hinside := within_solid h hsolid
  simp only [byteLength_append] at hinside
  rw [hspan]
  simpa [Nat.add_assoc] using hinside

/-! The patterns, and what they note. -/

theorem noted_variablePattern : variablePattern.noted =
    [(.name, something), (.article, alt indefinite (word "some")), (.type, plainWords false),
      (.value, something)] := rfl

theorem noted_baseAndSlotsPattern : baseAndSlotsPattern.noted =
    [(.name, something), (.article, alt indefinite (word "some")), (.type, plainWords false),
      (.slots, something)] := rfl

theorem noted_basePattern : basePattern.noted =
    [(.name, something), (.article, alt indefinite (word "some")), (.type, plainWords true)] := rfl

theorem somethingAt_variable {extent : Nat × Nat} (h : variablePattern.groups? text = some groups)
    (hlookup : groups.lookup .value = some extent) : SomethingAt text extent :=
  somethingAt_value
    [word "the", blanks, group .name something, blanks, alt (word "is") (word "are"), blanks,
      maybe (seq article blanks), group .type (plainWords false)]
    [blanks, word "equal", maybe (word "s"), maybe (seq blanks (word "to"))]
    (fun item hitem => by
      change (Part.value, item) ∈ [(.name, something), (.article, alt indefinite (word "some")),
        (.type, plainWords false)] at hitem
      simp at hitem) h hlookup

/-- The value of a declaration stands in its text. -/
theorem nested_value (h : span.Covers P text) {piece : Piece} {e : Expr}
    (hgroups : variablePattern.groups? text = some groups)
    (hpiece : piece? text span.start groups .value = some piece) (he : literal piece = .ok e) :
    (Node.expr e).Nested P ∧ e.span.Within span := by
  obtain ⟨extent, hlookup, rfl⟩ := piece?_eq_some hpiece
  obtain ⟨before, taken, after, htext, rfl, htaken⟩ := somethingAt_variable hgroups hlookup
  have hslice : slice text (byteLength before) (byteLength before + byteLength taken) = taken := by
    rw [htext, slice_part]
  obtain ⟨hspan, hchildren⟩ := literal_eq_ok he
  rcases htaken with ⟨c, hc, hblank⟩ | hsolid
  · exact absurd he (literal_blank (hslice.trans hc) hblank e)
  · have hinside := within_solid h ⟨before, taken, after, htext, rfl, hsolid⟩
    have hexpr : (Node.expr e).span = _ := hspan
    exact ⟨nested_leaf (by rw [hexpr]; exact hinside.1) hchildren, by rw [hspan]; exact hinside.2⟩

/-- A loose declaration is well nested, and it covers its text. -/
theorem nested_parse (h : span.Covers P text) (hs : (parse text span).toOption = some s) :
    (Node.stmt s).Nested P ∧ s.span = span := by
  cases outlined_parse hs with
  | @variableDeclaration groups type value hgroups htype hvalue =>
    have hinside := within_type h
      (fun item hitem => ⟨false, by simpa [noted_variablePattern] using hitem⟩) hgroups htype
    have hvalues : ∀ e ∈ value.toList, (Node.expr e).Nested P ∧ e.span.Within span := by
      intro e he
      obtain ⟨piece, hpiece, hread⟩ := hvalue e (Option.mem_toList.1 he)
      exact nested_value h hgroups hpiece hread
    have hdeclaration : (Node.variableDeclaration ⟨nameOf text groups, typeNameOf text groups type,
        value, span⟩).Nested P := by
      refine .intro h.sits ?_ .nil ?_ <;>
        refine List.forall_mem_cons.2 ⟨?_, List.forall_mem_map.2 fun e he => ?_⟩
      · exact hinside.2
      · exact (hvalues e he).2
      · exact nested_leaf hinside.1 rfl
      · exact (hvalues e he).1
    exact ⟨nested_whole h.sits rfl rfl hdeclaration rfl, rfl⟩
  | slots hgroups hlist hslots =>
    obtain ⟨extent, hlookup, rfl⟩ := piece?_eq_some hlist
    have hplace := somethingAt_slots [indefinite, blanks, group .name something, blanks, word "has"]
      hgroups hlookup
    exact ⟨nested_shape h.sits nofun (within_slots h hplace hslots), rfl⟩
  | baseAndSlots hgroups hlist hslots =>
    obtain ⟨extent, hlookup, rfl⟩ := piece?_eq_some hlist
    have hplace := somethingAt_slots
      [indefinite, blanks, group .name something, blanks, word "is", blanks,
        maybe (seq article blanks), group .type (plainWords false), blanks, word "with"]
      hgroups hlookup
    refine ⟨nested_shape h.sits (fun t ht => ?_) (within_slots h hplace hslots), rfl⟩
    obtain ⟨type, htype, rfl⟩ := Option.map_eq_some_iff.1 (Option.mem_toList.1 ht)
    exact within_type h (fun item hitem => ⟨false, by simpa [noted_baseAndSlotsPattern] using hitem⟩)
      hgroups htype
  | base hgroups htype =>
    have hinside := within_type h
      (fun item hitem => ⟨true, by simpa [noted_basePattern] using hitem⟩) hgroups htype
    exact ⟨nested_shape h.sits (List.forall_mem_singleton.2 hinside) nofun, rfl⟩

end Trees

end Prose.LooseDeclaration
