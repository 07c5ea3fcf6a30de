import Prose.Diagnostic.Suggestion
import Prose.Proofs.Text.Edits

/- The best suggestion. What is suggested is the first of the keywords with the least distance
   from the word, of those within the limit. How long a word is decides the limit and which
   keywords are looked at, and is counted in bytes: where every character is one byte, no
   keyword within the limit is passed over, since the distance of two words is at least the
   difference of their lengths. -/
namespace Prose

variable {choices : List String} {word k : String} {p : String → Bool} {score : String → Nat}

/-- The first of the choices that count with the least score of them all. -/
def IsFirstLeast (choices : List String) (counts : String → Prop) (score : String → Nat)
    (k : String) : Prop :=
  ∃ before after, choices = before ++ k :: after ∧ counts k ∧
    (∀ j ∈ before, counts j → score k < score j) ∧ ∀ j ∈ after, counts j → score k ≤ score j

theorem IsFirstLeast.congr {counts counts' : String → Prop}
    (h : ∀ j ∈ choices, (counts j ↔ counts' j)) :
    IsFirstLeast choices counts score k ↔ IsFirstLeast choices counts' score k := by
  constructor <;> rintro ⟨before, after, rfl, hk, hbefore, hafter⟩ <;>
    simp only [List.forall_mem_append, List.forall_mem_cons] at h <;>
    obtain ⟨hb, hsame, ha⟩ := h
  · exact ⟨before, after, rfl, hsame.1 hk, fun j hj hc => hbefore j hj ((hb j hj).2 hc),
      fun j hj hc => hafter j hj ((ha j hj).2 hc)⟩
  · exact ⟨before, after, rfl, hsame.2 hk, fun j hj hc => hbefore j hj ((hb j hj).1 hc),
      fun j hj hc => hafter j hj ((ha j hj).1 hc)⟩

/-! ### The nearest candidate -/

section Nearest

variable {cs : List (String × Nat)} {c d : String × Nat}

theorem nearest_eq_none_iff : nearest cs = none ↔ cs = [] := by
  cases cs with
  | nil => exact ⟨fun _ => rfl, fun _ => rfl⟩
  | cons c rest =>
    rw [nearest]
    split
    · simp
    · split <;> simp

theorem nearest_cons_of_le (h : ∀ d ∈ cs, c.2 ≤ d.2) (hmem : ∀ d, nearest cs = some d → d ∈ cs) :
    nearest (c :: cs) = some c := by
  rw [nearest]
  split
  · rfl
  · next d hd => rw [if_neg (Nat.not_lt.2 (h d (hmem d hd)))]

/-- The nearest is nearer than all before it, and no farther than any behind it. -/
theorem exists_of_nearest (h : nearest cs = some c) :
    ∃ before after, cs = before ++ c :: after ∧
      (∀ d ∈ before, c.2 < d.2) ∧ ∀ d ∈ after, c.2 ≤ d.2 := by
  induction cs generalizing c with
  | nil => exact absurd h nofun
  | cons b rest ih =>
    rw [nearest] at h
    split at h
    · next hnone =>
      obtain rfl := Option.some.inj h
      exact ⟨[], [], by rw [nearest_eq_none_iff.1 hnone]; rfl, nofun, nofun⟩
    · next d hsome =>
      obtain ⟨before, after, rfl, hbefore, hafter⟩ := ih hsome
      split at h
      · next hlt =>
        obtain rfl := Option.some.inj h
        exact ⟨b :: before, after, rfl, List.forall_mem_cons.2 ⟨hlt, hbefore⟩, hafter⟩
      · next hle =>
        obtain rfl := Option.some.inj h
        refine ⟨[], before ++ d :: after, rfl, nofun, ?_⟩
        rw [List.forall_mem_append, List.forall_mem_cons]
        exact ⟨fun e he => by have := hbefore e he; omega, by omega,
          fun e he => by have := hafter e he; omega⟩

theorem nearest_eq_some_iff :
    nearest cs = some c ↔ ∃ before after, cs = before ++ c :: after ∧
      (∀ d ∈ before, c.2 < d.2) ∧ ∀ d ∈ after, c.2 ≤ d.2 := by
  refine ⟨exists_of_nearest, ?_⟩
  rintro ⟨before, after, rfl, hbefore, hafter⟩
  induction before with
  | nil =>
    refine nearest_cons_of_le hafter fun d hd => ?_
    obtain ⟨front, back, rfl, -⟩ := exists_of_nearest hd
    simp
  | cons b before ih =>
    obtain ⟨hb, hrest⟩ := List.forall_mem_cons.1 hbefore
    rw [List.cons_append, nearest, ih hrest]
    exact if_pos hb

/-- The nearest of the choices that are scored. -/
theorem nearest_scored_iff :
    (nearest ((choices.filter p).map fun k => (k, score k))).map Prod.fst = some k ↔
      IsFirstLeast choices (fun k => p k = true) score k := by
  constructor
  · intro h
    obtain ⟨⟨k, n⟩, hnearest, rfl⟩ := Option.map_eq_some_iff.1 h
    obtain ⟨before, after, hsplit, hbefore, hafter⟩ := nearest_eq_some_iff.1 hnearest
    obtain ⟨front, back, hfilter, rfl, hmap⟩ := List.map_eq_append_iff.1 hsplit
    obtain ⟨k, rest, rfl, hpair, rfl⟩ := List.map_eq_cons_iff.1 hmap
    obtain ⟨rfl, rfl⟩ := Prod.mk.inj hpair
    obtain ⟨front, back, rfl, rfl, hback⟩ := List.filter_eq_append_iff.1 hfilter
    obtain ⟨skipped, rest, rfl, hskipped, hk, rfl⟩ := List.filter_eq_cons_iff.1 hback
    simp only [List.forall_mem_map, List.mem_filter, and_imp] at hbefore hafter
    refine ⟨front ++ skipped, rest, by simp, hk, ?_, hafter⟩
    rw [List.forall_mem_append]
    exact ⟨hbefore, fun j hj hp => absurd hp (hskipped j hj)⟩
  · rintro ⟨before, after, rfl, hk, hbefore, hafter⟩
    rw [List.filter_append, List.filter_cons_of_pos hk, List.map_append, List.map_cons,
      nearest_eq_some_iff.2 ⟨_, _, rfl, ?_, ?_⟩, Option.map_some]
    · simpa only [List.forall_mem_map, List.mem_filter, and_imp] using hbefore
    · simpa only [List.forall_mem_map, List.mem_filter, and_imp] using hafter

end Nearest

/-! ### The suggestion -/

/-- How far off a word of so many letters may be. -/
def suggestLimit (size : Nat) : Nat := if 4 ≤ size then 2 else 1

/-- The suggestion for a word of `size` letters: the first of the nearest choices, of those
    that are near enough. -/
def Suggests (choices : List String) (word : String) (size : Nat) (near : String → Prop) :
    Option String → Prop
  | some k => 2 < size ∧ Text.lower word ∉ choices ∧
      IsFirstLeast choices near (Text.editDistance word) k
  | none => size ≤ 2 ∨ Text.lower word ∈ choices ∨ ∀ j ∈ choices, ¬ near j

theorem suggests_congr {size : Nat} {near near' : String → Prop}
    (h : ∀ j ∈ choices, (near j ↔ near' j)) (r : Option String) :
    Suggests choices word size near r ↔ Suggests choices word size near' r := by
  cases r with
  | some k => exact and_congr_right' (and_congr_right' (IsFirstLeast.congr h))
  | none => exact or_congr_right (or_congr_right (forall₂_congr fun j hj => not_congr (h j hj)))

/-- The choice is looked at, for its length in bytes, and within the limit for the bytes of
    the word. -/
def IsNear (word k : String) : Prop :=
  difference (Text.byteLength word.toList) (Text.byteLength k.toList) ≤ 2 ∧
    Text.editDistance word k ≤ suggestLimit (Text.byteLength word.toList)

theorem nearest_isNear (hp : ∀ k, p k = true ↔ IsNear word k) (r : Option String)
    (hlong : 2 < Text.byteLength word.toList) (hnew : Text.lower word ∉ choices) :
    (nearest ((choices.filter p).map fun k => (k, Text.editDistance word k))).map Prod.fst = r ↔
      Suggests choices word (Text.byteLength word.toList) (IsNear word) r := by
  cases r with
  | some k =>
    rw [nearest_scored_iff, Suggests, and_iff_right hlong, and_iff_right hnew]
    simp only [hp]
  | none =>
    rw [Option.map_eq_none_iff, nearest_eq_none_iff, List.map_eq_nil_iff, List.filter_eq_nil_iff,
      Suggests, or_iff_right (Nat.not_le.2 hlong), or_iff_right hnew]
    simp only [hp]

theorem suggestFrom_eq_iff (choices : List String) (word : String) (r : Option String) :
    suggestFrom choices word = r ↔
      Suggests choices word (Text.byteLength word.toList) (IsNear word) r := by
  have hlower : ∀ k, Text.editDistance (Text.lower word) k = Text.editDistance word k := by
    intro k
    rw [Text.editDistance, Text.lower_lower, Text.editDistance]
  simp only [suggestFrom, hlower]
  split
  · next hshort => cases r <;> simp [Suggests, hshort, Nat.not_lt.2 hshort]
  · next hlong =>
    split
    · next hmem => cases r <;> simp [Suggests, List.contains_iff_mem.1 hmem]
    · next hnew =>
      rw [List.contains_iff_mem] at hnew
      rw [List.filter_map, List.filter_filter]
      refine nearest_isNear (fun k => ?_) r (Nat.not_le.1 hlong) hnew
      simp only [Function.comp_apply, Bool.and_eq_true, decide_eq_true_eq, and_comm, IsNear,
        suggestLimit]

/-! ### Words of one byte a character -/

/-- Every character of the text is one byte. -/
def IsPlain (s : String) : Prop := ∀ c ∈ s.toList, c.utf8Size = 1

instance (s : String) : Decidable (IsPlain s) :=
  decidable_of_iff ((s.toList.all fun c => c.utf8Size == 1) = true)
    (by rw [IsPlain, List.all_eq_true]; exact forall₂_congr fun _ _ => beq_iff_eq)

theorem IsPlain.byteLength {s : String} (h : IsPlain s) : Text.byteLength s.toList = s.length := by
  have hall : ∀ cs : List Char, (∀ c ∈ cs, c.utf8Size = 1) → Text.byteLength cs = cs.length := by
    intro cs hcs
    induction cs with
    | nil => rfl
    | cons c cs ih =>
      obtain ⟨hc, hrest⟩ := List.forall_mem_cons.1 hcs
      rw [Text.byteLength_cons, hc, ih hrest, List.length_cons, Nat.add_comm]
  rw [hall s.toList h, String.length_toList]

theorem IsPlain.length_lower {s : String} (h : IsPlain s) :
    (Text.lower s).toList.length = s.length := by
  have hletters : ∀ c ∈ s.toList, c.toNat ≠ 0x130 := by
    intro c hc hdotted
    have hsize := h c hc
    have heq : c = Char.ofNat 0x130 := by rw [← hdotted, Char.ofNat_toNat]
    rw [heq] at hsize
    exact absurd hsize (by decide)
  rw [Text.lower, String.toList_ofList, Text.length_lowerAfter hletters, String.length_toList]

/-- Words that are so much longer or shorter are so far apart. -/
theorem difference_le_editDistance (hword : IsPlain word) (hk : IsPlain k) :
    difference word.length k.length ≤ Text.editDistance word k := by
  have hedits := Text.edits_charDistance (Text.lower word).toList (Text.lower k).toList
  have hword' := hedits.length_le
  have hk' := hedits.symm.length_le
  rw [hword.length_lower, hk.length_lower] at hword' hk'
  rw [difference, Text.editDistance]
  omega

theorem isNear_iff (hword : IsPlain word) (hk : IsPlain k) :
    IsNear word k ↔ Text.editDistance word k ≤ suggestLimit word.length := by
  have hle := difference_le_editDistance hword hk
  have hlimit : suggestLimit word.length ≤ 2 := by
    rw [suggestLimit]
    split <;> omega
  rw [IsNear, hword.byteLength, hk.byteLength, and_iff_right_iff_imp]
  omega

/-- The suggestion is the first of the nearest keywords, with lengths in bytes; where a
    character is one byte, that is the first of the nearest keywords of the whole list. -/
theorem suggestFrom_suggests (choices : List String) (word : String) :
    (∀ r, suggestFrom choices word = r ↔
      Suggests choices word (Text.byteLength word.toList) (IsNear word) r) ∧
    (IsPlain word → (∀ k ∈ choices, IsPlain k) → ∀ r, suggestFrom choices word = r ↔
      Suggests choices word word.length
        (fun k => Text.editDistance word k ≤ suggestLimit word.length) r) := by
  refine ⟨suggestFrom_eq_iff choices word, fun hword hchoices r => ?_⟩
  rw [suggestFrom_eq_iff, hword.byteLength]
  exact suggests_congr (fun k hk => isNear_iff hword (hchoices k hk)) r

theorem suggestFrom_suggests_retrun :
    (IsPlain "Retrun" ∧ ∀ k ∈ keywords, IsPlain k) ∧
      Suggests keywords "Retrun" "Retrun".length
        (fun k => Text.editDistance "Retrun" k ≤ suggestLimit "Retrun".length)
        (some "return") := by
  have hplain : IsPlain "Retrun" ∧ ∀ k ∈ keywords, IsPlain k := by decide +kernel
  have hfrom : suggestFrom keywords "Retrun" = some "return" := by decide +kernel
  exact ⟨hplain, ((suggestFrom_suggests keywords "Retrun").2 hplain.1 hplain.2 _).1 hfrom⟩

/-- A word of two letters with accents is taken for a misspelling, and a keyword that one
    letter of three bytes was added to is not found. -/
theorem suggestKeyword_not_suggests :
    ¬ Suggests keywords "éé" "éé".length
        (fun k => Text.editDistance "éé" k ≤ suggestLimit "éé".length) (suggestKeyword "éé") ∧
      ¬ Suggests keywords "add中" "add中".length
        (fun k => Text.editDistance "add中" k ≤ suggestLimit "add中".length)
        (suggestKeyword "add中") := by
  have hshort : suggestKeyword "éé" = some "an" := by decide +kernel
  have hhidden : suggestKeyword "add中" = none := by decide +kernel
  rw [hshort, hhidden]
  refine ⟨fun h => absurd h.1 (by decide), ?_⟩
  rintro (hsize | hmem | hfar)
  · exact absurd hsize (by decide)
  · exact absurd hmem (by decide +kernel)
  · exact hfar "add" (by decide +kernel) (by decide +kernel)

end Prose
