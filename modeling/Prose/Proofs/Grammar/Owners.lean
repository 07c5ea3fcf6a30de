import Prose.Proofs.Grammar.Nested
import Prose.Proofs.Text.Cut
import Prose.Proofs.Tree.Parts

/- How many owners a reference has. The room of a reading bounds the owners that stand behind
   an `of`. The others stand before an apostrophe, and each of these is in the text that the
   reference covers. Where owners are put above others, what the two chains cover stands one
   behind the other, so that no apostrophe is counted twice. -/
namespace Prose

open Text

namespace Text

variable {text : List Char} {k m n : Nat}

/-- The sign before the `s` of a possessive, typed or typeset. -/
def isApostrophe (c : Char) : Bool := c == '\'' || c == '\u2019'

/-- The number of apostrophes in a part of a text. -/
def apostrophes (text : List Char) (start stop : Nat) : Nat :=
  (slice text start stop).countP isApostrophe

/-- A part counts as what is before and behind a cut in it together. -/
theorem apostrophes_add (hk : Cut text k) (hm : Cut text m) (hkm : k ≤ m) (hmn : m ≤ n) :
    apostrophes text k n = apostrophes text k m + apostrophes text m n := by
  rw [apostrophes, slice_append hk hm hkm hmn, List.countP_append]
  rfl

end Text

variable {text : List Char} {ts us : List Token} {s t u : Span}

/-- The apostrophes in what a span covers. -/
def Span.apostrophes (text : List Char) (s : Span) : Nat := Text.apostrophes text s.start s.stop

/-- Parts of a text that stand one behind the other in a third one. -/
theorem Span.apostrophes_add_le (hs : s.Sits (Cut text)) (ht : t.Sits (Cut text))
    (hu : u.Sits (Cut text)) (hsu : s.Within u) (htu : t.Within u) (hst : s.stop ≤ t.start) :
    s.apostrophes text + t.apostrophes text ≤ u.apostrophes text := by
  have hs' := hs.1
  have ht' := ht.1
  obtain ⟨hsu, hsu'⟩ := hsu
  obtain ⟨htu, htu'⟩ := htu
  -- from the left to the right, from one cut to the next
  have hbefore := apostrophes_add hu.2.1 hs.2.1 hsu (Nat.le_trans hs' hsu')
  have hfirst := apostrophes_add hs.2.1 hs.2.2 hs' hsu'
  have hbetween := apostrophes_add hs.2.2 ht.2.1 hst (Nat.le_trans ht' htu')
  have hsecond := apostrophes_add ht.2.1 ht.2.2 ht' htu'
  simp only [Span.apostrophes]
  omega

/-- A reference has no more owners than there is room for behind an `of` and apostrophes in
    what it covers. -/
def Reference.Capped (text : List Char) (room : Nat) (r : Reference) : Prop :=
  r.owners.length ≤ room + r.span.apostrophes text

/-- Tokens one behind the other, cut out of a text. A possessive among them has an apostrophe. -/
structure Token.Marked (text : List Char) (ts : List Token) : Prop where
  significant : ∀ t ∈ ts, t.isSignificant
  laid : Laid (Cut text) ts
  apostrophe : ∀ t ∈ ts, t.kind = .possessive → 1 ≤ (Span.ofToken t).apostrophes text

theorem Token.Marked.part (h : Marked text ts) (hsub : us.Sublist ts) : Marked text us where
  significant t ht := h.significant t (hsub.subset ht)
  laid := h.laid.sublist hsub
  apostrophe t ht := h.apostrophe t (hsub.subset ht)

/-- What some tokens hold stands before what the tokens behind them hold. -/
theorem Token.Laid.stop_le_start {P : Nat → Prop} (h : Laid P (ts ++ us)) (hs : s.HeldBy ts)
    (ht : t.HeldBy us) : s.stop ≤ t.start := by
  obtain ⟨-, -, last, hlast, -, hstop⟩ := hs
  obtain ⟨first, hfirst, -, -, hstart, -⟩ := ht
  have hbetween : last.stop ≤ first.start := (List.pairwise_append.1 h.inOrder).2.2 last hlast first hfirst
  exact Nat.le_trans hstop (Nat.le_trans hbetween hstart)

namespace Reference

variable {r owner : Reference} {room : Nat}

theorem length_owners_withRootOwner (r owner : Reference) :
    (r.withRootOwner owner).owners.length = r.owners.length + (owner.owners.length + 1) := by
  simp [withRootOwner]

/-- The nearest owner stays where it is, with the new owner above it. -/
theorem owner?_withRootOwner (r owner : Reference) :
    (r.withRootOwner owner).owner? = some (match r.owner? with
      | none => owner
      | some o => o.withRootOwner owner) := by
  obtain ⟨name, span, owners⟩ := r
  cases owners <;> rfl

end Reference

namespace Grammar

open Node

/-- A reference without an `of` and an owner that stands behind one. -/
theorem capped_withRootOwner {room : Nat} {owner : Reference}
    (howner : (Node.reference owner).UsesOnly (Reference.Capped text room))
    (hsits : owner.span.Sits (Cut text)) {r : Reference}
    (hr : (Node.reference r).UsesOnly (Reference.Capped text 0))
    (hnested : (Node.reference r).Nested (Cut text)) (hbefore : r.span.stop ≤ owner.span.start) :
    (Node.reference (r.withRootOwner owner)).UsesOnly (Reference.Capped text (room + 1)) := by
  have hself : r.owners.length ≤ 0 + r.span.apostrophes text := hr r (self_mem_preorder _)
  have habove : owner.owners.length ≤ room + owner.span.apostrophes text :=
    howner owner (self_mem_preorder _)
  have hadd : r.span.apostrophes text + owner.span.apostrophes text ≤
      (r.withRootOwner owner).span.apostrophes text :=
    Span.apostrophes_add_le hnested.sits hsits (hnested.sits.cover hsits) (Span.within_cover_left ..)
      (Span.within_cover_right ..) hbefore
  refine usesOnly_reference ?_ fun o ho => ?_
  · rw [Reference.Capped, Reference.length_owners_withRootOwner]
    omega
  · rw [Reference.owner?_withRootOwner] at ho
    obtain rfl := Option.some.inj ho
    split
    · exact howner.mono fun _ h => Nat.le_trans h (by omega)
    · next o ho =>
      have hmem : Node.reference o ∈ (Node.reference r).children := by
        simp [children, ho]
      obtain ⟨hbelow, hwithin⟩ := hnested.of_mem_children hmem
      exact capped_withRootOwner howner hsits
        (fun r' hr' => hr r' (preorder_subset hmem hr')) hbelow (Nat.le_trans hwithin.2 hbefore)
termination_by (Node.reference r).weight
decreasing_by exact weight_lt_of_mem_children hmem

theorem ReferenceFrom.capped {room : Nat} {r : Reference} (h : ReferenceFrom room r ts)
    (hts : Token.Marked text ts) : (Node.reference r).UsesOnly (Reference.Capped text room) := by
  induction h with
  | name => exact usesOnly_unowned (Nat.zero_le _) rfl
  | @slot room r ts apostrophe article name us hr hapostrophe harticle hname ih =>
    have hfits := hr.fits (hts.laid.sublist (List.sublist_append_left ..))
    have hmark : (Span.ofToken apostrophe).HeldBy (apostrophe :: (article ++ us)) :=
      Span.heldBy_ofToken List.mem_cons_self
    have hsits := hts.laid.sits_ofTokens (by simp)
    have hadd : r.span.apostrophes text + (Span.ofToken apostrophe).apostrophes text ≤
        (Span.ofTokens (ts ++ apostrophe :: (article ++ us))).apostrophes text :=
      Span.apostrophes_add_le hfits.nested.sits (hts.laid.sits apostrophe (by simp)) hsits
        (hts.laid.within (hfits.held.mono (List.subset_append_left ..)))
        (hts.laid.within (hmark.mono (List.subset_append_right ..)))
        (hts.laid.stop_le_start hfits.held hmark)
    have hone := hts.apostrophe apostrophe (by simp) hapostrophe
    have howner := ih (hts.part (List.sublist_append_left ..))
    have hchain : r.owners.length ≤ 0 + r.span.apostrophes text := howner r (self_mem_preorder _)
    refine usesOnly_reference ?_ fun o ho => ?_
    · show r.owners.length + 1 ≤ room + (Span.over _).apostrophes text
      rw [hts.laid.over_eq]
      omega
    · obtain rfl : r = o := Option.some.inj ho
      exact howner.mono fun _ h => Nat.le_trans h (by omega)
  | @owned room r ts preposition owner us hr hof howner ihr ihowner =>
    have hfits := hr.fits (hts.laid.sublist (List.sublist_append_left ..))
    have hfits' := howner.fits (hts.laid.sublist (by grind))
    refine capped_withRootOwner (ihowner (hts.part (by grind))) hfits'.nested.sits
      (ihr (hts.part (by grind))) hfits.nested ?_
    exact hts.laid.stop_le_start hfits.held (hfits'.held.mono (List.subset_cons_self ..))

end Grammar

end Prose
