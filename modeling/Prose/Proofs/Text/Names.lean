import Mathlib.Data.List.Chain
import Prose.LooseDeclaration
import Prose.Proofs.Text.Edge

/- Names. A name is made of words, and it is well written if single blanks stand between them
   and none around them. Words joined by spaces make such a name, and so does a text that is
   collapsed, unless there is nothing but blanks in it. -/
namespace Prose

open Text

/-- A name as it should be: it is not empty, no blank stands at either end of it, and no two
    blanks stand side by side in it. -/
structure IsName (name : String) : Prop where
  starts : StartsSolid name.toList
  ends : EndsSolid name.toList
  single : name.toList.IsChain fun c d => isBlank c = false ∨ isBlank d = false

theorem not_isName_empty : ¬IsName "" := by
  intro h
  obtain ⟨c, rest, hstart, -⟩ := h.starts
  cases hstart

namespace Text

variable {cs w : List Char}

/-- A word is not empty, and there are no blanks in it. -/
def IsWord (w : List Char) : Prop := w ≠ [] ∧ ∀ c ∈ w, isBlank c = false

theorem IsWord.isName {s : String} (h : IsWord s.toList) : IsName s where
  starts := startsSolid_of_forall h.1 h.2
  ends := endsSolid_of_forall h.1 h.2
  single := by
    rw [List.isChain_iff_getElem]
    exact fun i hi => .inl (h.2 _ (List.getElem_mem _))

theorem blankSeparated_cons {c : Char} (hc : isBlank c = true) (rest : List Char) :
    blankSeparated (c :: rest) = blankSeparated rest := by
  rw [blankSeparated.eq_def]
  exact if_pos hc

/-- A character that is no blank starts a word, alone or in front of the first one behind it. -/
theorem exists_blankSeparated_cons {c : Char} (hc : isBlank c = false) (rest : List Char) :
    ∃ word words, blankSeparated (c :: rest) = (c :: word) :: words ∧
      (word = [] ∨ word ∈ blankSeparated rest) ∧ words ⊆ blankSeparated rest := by
  rw [blankSeparated.eq_def]
  simp only [hc, Bool.false_eq_true, if_false]
  split
  · next next tail word words hlater =>
    rw [hlater]
    split
    · exact ⟨[], word :: words, rfl, .inl rfl, List.Subset.refl _⟩
    · exact ⟨word, words, rfl, .inr List.mem_cons_self, List.subset_cons_self ..⟩
  · exact ⟨[], _, rfl, .inl rfl, List.Subset.refl _⟩

theorem isWord_of_mem_blankSeparated (h : w ∈ blankSeparated cs) : IsWord w := by
  induction cs generalizing w with
  | nil => exact absurd h List.not_mem_nil
  | cons c rest ih =>
    cases hc : isBlank c with
    | true =>
      rw [blankSeparated_cons hc] at h
      exact ih h
    | false =>
      obtain ⟨word, words, hwords, hword, hlater⟩ := exists_blankSeparated_cons hc rest
      rw [hwords, List.mem_cons] at h
      rcases h with rfl | h
      · refine ⟨List.cons_ne_nil _ _, List.forall_mem_cons.2 ⟨hc, ?_⟩⟩
        rcases hword with rfl | hword
        · exact nofun
        · exact (ih hword).2
      · exact ih (hlater h)

/-- There is a word in every text that is not blank. -/
theorem blankSeparated_ne_nil {c : Char} (hmem : c ∈ cs) (hc : isBlank c = false) :
    blankSeparated cs ≠ [] := by
  induction cs with
  | nil => exact absurd hmem List.not_mem_nil
  | cons d rest ih =>
    cases hd : isBlank d with
    | true =>
      have hne : c ≠ d := by
        rintro rfl
        rw [hd] at hc
        cases hc
      rw [blankSeparated_cons hd]
      exact ih ((List.mem_cons.1 hmem).resolve_left hne)
    | false =>
      obtain ⟨word, words, hwords, -⟩ := exists_blankSeparated_cons hd rest
      rw [hwords]
      exact List.cons_ne_nil _ _

theorem blankSeparated_blank (h : ∀ c ∈ cs, isBlank c = true) : blankSeparated cs = [] := by
  induction cs with
  | nil => rfl
  | cons c rest ih =>
    rw [List.forall_mem_cons] at h
    rw [blankSeparated_cons h.1, ih h.2]

end Text

variable {a b : String} {words : List String}

/-- Two names with a space between them are one name. -/
theorem IsName.join (ha : IsName a) (hb : IsName b) : IsName (a ++ " " ++ b) where
  starts := by
    rw [String.append_assoc, String.toList_append]
    exact ha.starts.append _
  ends := by
    rw [String.toList_append]
    exact hb.ends.prepend _
  single := by
    rw [String.toList_append, String.toList_append]
    obtain ⟨before, c, hlast, hc⟩ := ha.ends
    obtain ⟨d, after, hfirst, hd⟩ := hb.starts
    refine (ha.single.append (List.isChain_singleton ' ') fun x hx y _ => ?_).append hb.single
      fun x _ y hy => ?_
    · rw [hlast, List.getLast?_concat] at hx
      exact .inl (Option.some.inj hx ▸ hc)
    · rw [hfirst] at hy
      exact .inr (Option.some.inj hy ▸ hd)

/-- Words with spaces between them are a name. -/
theorem isName_intercalate (hne : words ≠ []) (h : ∀ w ∈ words, IsWord w.toList) :
    IsName (" ".intercalate words) := by
  induction words with
  | nil => exact absurd rfl hne
  | cons w words ih =>
    rw [List.forall_mem_cons] at h
    by_cases hmore : words = []
    · rw [hmore, String.intercalate_singleton]
      exact h.1.isName
    · rw [String.intercalate_cons_of_ne_nil hmore]
      exact h.1.isName.join (ih hmore h.2)

namespace LooseDeclaration

variable {text : List Char}

/-- What is not blank gives a name. -/
theorem isName_collapse {c : Char} (hc : c ∈ text) (hsolid : isBlank c = false) :
    IsName (collapse text) := by
  apply isName_intercalate
  · rw [ne_eq, List.map_eq_nil_iff]
    exact blankSeparated_ne_nil hc hsolid
  · refine List.forall_mem_map.2 fun w hw => ?_
    rw [String.toList_ofList]
    exact isWord_of_mem_blankSeparated hw

theorem collapse_blank (h : ∀ c ∈ text, isBlank c = true) : collapse text = "" := by
  rw [collapse, blankSeparated_blank h]
  rfl

end LooseDeclaration

end Prose
