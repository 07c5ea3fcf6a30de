import Prose.Proofs.Document.Lines
import Prose.Proofs.Text.Edge

/- Blanking out. A text with its comment lines blanked out is as long as the text. It can be
   cut wherever the text can be cut, but not the other way round: a character of several
   bytes becomes several spaces. What is no blank stands in both at the same place. -/
namespace Prose.Layout

open Prose.Text

/-- The second text is the first one with some characters blanked out. -/
inductive Blanked : List Char → List Char → Prop where
  | nil : Blanked [] []
  | keep {c : Char} {cs ds : List Char} (h : Blanked cs ds) : Blanked (c :: cs) (c :: ds)
  | blank {c : Char} {cs ds : List Char} (h : Blanked cs ds) :
      Blanked (c :: cs) (List.replicate c.utf8Size ' ' ++ ds)

namespace Blanked

variable {cs ds cs' ds' : List Char} {n : Nat}

theorem refl (cs : List Char) : Blanked cs cs := by
  induction cs with
  | nil => exact .nil
  | cons c cs ih => exact .keep ih

theorem append (h : Blanked cs ds) (h' : Blanked cs' ds') : Blanked (cs ++ cs') (ds ++ ds') := by
  induction h with
  | nil => exact h'
  | keep _ ih => exact .keep ih
  | blank _ ih =>
    rw [List.append_assoc]
    exact .blank ih

theorem blankOut (cs : List Char) : Blanked cs (cs.flatMap blankOut) := by
  induction cs with
  | nil => exact .nil
  | cons c cs ih =>
    rw [List.flatMap_cons, Layout.blankOut]
    split
    · exact .keep ih
    · exact .blank ih

theorem byteLength_eq (h : Blanked cs ds) : byteLength ds = byteLength cs := by
  have hspaces (k : Nat) : byteLength (List.replicate k ' ') = k := by
    induction k with
    | zero => rfl
    | succ k ih => rw [List.replicate_succ, byteLength_cons, ih, Nat.add_comm]; rfl
  induction h with
  | nil => rfl
  | keep _ ih => rw [byteLength_cons, byteLength_cons, ih]
  | blank _ ih => rw [byteLength_append, byteLength_cons, hspaces, ih]

/-- The blanked text can be cut where the text can. -/
theorem cut (h : Blanked cs ds) (hn : Cut cs n) : Cut ds n := by
  obtain ⟨before, after, hsplit, rfl⟩ := hn
  obtain ⟨before', after', rfl, hbefore⟩ : ∃ before' after', ds = before' ++ after' ∧
      Blanked before before' := by
    induction h generalizing before with
    | nil =>
      obtain ⟨rfl, rfl⟩ := List.nil_eq_append_iff.1 hsplit
      exact ⟨[], [], rfl, .nil⟩
    | @keep c cs ds _ ih =>
      rcases List.cons_eq_append_iff.1 hsplit with ⟨rfl, -⟩ | ⟨before, rfl, rfl⟩
      · exact ⟨[], c :: ds, rfl, .nil⟩
      · obtain ⟨before', after', rfl, hbefore⟩ := ih before rfl
        exact ⟨c :: before', after', rfl, .keep hbefore⟩
    | @blank c cs ds _ ih =>
      rcases List.cons_eq_append_iff.1 hsplit with ⟨rfl, -⟩ | ⟨before, rfl, rfl⟩
      · exact ⟨[], _, rfl, .nil⟩
      · obtain ⟨before', after', rfl, hbefore⟩ := ih before rfl
        exact ⟨_, after', (List.append_assoc ..).symm, .blank hbefore⟩
  exact ⟨before', after', rfl, hbefore.byteLength_eq⟩

/-- What is no space was there before, and what stands before it was blanked out from what
    stands before it in the text. -/
theorem exists_kept (h : Blanked cs ds) {before after : List Char} {c : Char}
    (hsplit : ds = before ++ c :: after) (hc : c ≠ ' ') :
    ∃ left right, cs = left ++ c :: right ∧ Blanked left before := by
  induction h generalizing before with
  | nil => exact absurd hsplit (by simp)
  | keep hrest ih =>
    rcases List.cons_eq_append_iff.1 hsplit with ⟨rfl, hcons⟩ | ⟨before, rfl, rfl⟩
    · obtain ⟨rfl, rfl⟩ := List.cons.inj hcons
      exact ⟨[], _, rfl, .nil⟩
    · obtain ⟨left, right, rfl, hleft⟩ := ih rfl
      exact ⟨_ :: left, right, rfl, .keep hleft⟩
  | @blank d cs ds hrest ih =>
    rcases append_eq_append_cons hsplit with ⟨rest, rfl, hds⟩ | ⟨spaces, hspaces, -⟩
    · obtain ⟨left, right, rfl, hleft⟩ := ih hds
      exact ⟨d :: left, right, rfl, .blank hleft⟩
    · -- the character would be one of the spaces
      have hmem : c ∈ List.replicate d.utf8Size ' ' := by
        rw [hspaces]
        simp
      exact absurd (List.mem_replicate.1 hmem).2 hc

/-- What is no blank was there before, so that the text can be cut before and behind it. -/
theorem cut_of_edge (h : Blanked cs ds) (hn : Edge ds n) : Cut cs n := by
  obtain ⟨before, c, after, hsplit, hc, hn⟩ := hn
  have hspace : c ≠ ' ' := by
    rintro rfl
    exact absurd hc (by decide)
  obtain ⟨left, right, rfl, hleft⟩ := h.exists_kept hsplit hspace
  rw [hleft.byteLength_eq] at hn
  exact Edge.cut ⟨left, c, right, rfl, hc, hn⟩

end Blanked

/-- A line is blanked out if it is a comment. -/
theorem blanked_withoutComment (marker : Char) (line : List Char) :
    Blanked line (withoutComment marker line) := by
  rw [withoutComment]
  split
  · exact .blankOut line
  · exact .refl line

theorem blanked_flatMap (marker : Char) (ls : List (List Char)) :
    Blanked ls.flatten (ls.flatMap (withoutComment marker)) := by
  induction ls with
  | nil => exact .nil
  | cons line ls ih =>
    rw [List.flatten_cons, List.flatMap_cons]
    exact (blanked_withoutComment marker line).append ih

theorem blanked_withoutComments (marker : Char) (text : List Char) :
    Blanked text (withoutComments marker text) := by
  have h := blanked_flatMap marker (lines text)
  rwa [flatten_lines] at h

end Prose.Layout
