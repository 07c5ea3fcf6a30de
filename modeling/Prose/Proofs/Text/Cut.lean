import Prose.Text.Bytes

/- Cuts: the byte offsets between two characters of a text, and its ends. A slice between
   two cuts is a part of the text, and a slice of a part is a slice of the whole. -/
namespace Prose.Text

variable {cs : List Char} {m n : Nat}

theorem byteLength_eq_zero_iff : byteLength cs = 0 ↔ cs = [] := by
  cases cs with
  | nil => simp
  | cons c cs =>
    have hpos := c.utf8Size_pos
    simp only [byteLength_cons, List.cons_ne_nil, iff_false]
    omega

theorem dropBytes_zero (cs : List Char) : dropBytes 0 cs = cs := by
  cases cs <;> rfl

theorem takeBytes_zero (cs : List Char) : takeBytes 0 cs = [] := by
  cases cs <;> rfl

theorem dropBytes_append (cs ds : List Char) (n : Nat) :
    dropBytes (byteLength cs + n) (cs ++ ds) = dropBytes n ds := by
  induction cs with
  | nil => simp
  | cons c cs ih =>
    have hpos := c.utf8Size_pos
    have hrest : c.utf8Size + byteLength cs + n - c.utf8Size = byteLength cs + n := by omega
    rw [List.cons_append, dropBytes, byteLength_cons, if_neg (by omega), hrest, ih]

theorem takeBytes_append_of_le (ds : List Char) (h : n ≤ byteLength cs) :
    takeBytes n (cs ++ ds) = takeBytes n cs := by
  induction cs generalizing n with
  | nil =>
    obtain rfl : n = 0 := Nat.le_zero.1 h
    rw [takeBytes_zero, takeBytes_zero]
  | cons c cs ih =>
    rw [byteLength_cons] at h
    rw [List.cons_append, takeBytes, takeBytes, ih (by omega)]

theorem takeBytes_append (cs ds : List Char) (n : Nat) :
    takeBytes (byteLength cs + n) (cs ++ ds) = cs ++ takeBytes n ds := by
  induction cs with
  | nil => simp
  | cons c cs ih =>
    have hpos := c.utf8Size_pos
    have hrest : c.utf8Size + byteLength cs + n - c.utf8Size = byteLength cs + n := by omega
    rw [List.cons_append, takeBytes, byteLength_cons, if_neg (by omega), hrest, ih, List.cons_append]

theorem takeBytes_self (cs : List Char) : takeBytes (byteLength cs) cs = cs := by
  have happend := takeBytes_append cs [] 0
  rwa [takeBytes_zero, Nat.add_zero, List.append_nil] at happend

theorem byteLength_dropBytes_le (n : Nat) (cs : List Char) :
    byteLength (dropBytes n cs) ≤ byteLength cs := by
  fun_induction dropBytes n cs with
  | case1 => exact Nat.le_refl _
  | case2 c cs => exact Nat.le_refl _
  | case3 n c cs hn ih =>
    rw [byteLength_cons]
    omega

theorem byteLength_takeBytes_le (n : Nat) (cs : List Char) :
    byteLength (takeBytes n cs) ≤ byteLength cs := by
  fun_induction takeBytes n cs with
  | case1 => exact Nat.le_refl _
  | case2 c cs => exact Nat.zero_le _
  | case3 n c cs hn ih =>
    rw [byteLength_cons, byteLength_cons]
    omega

theorem byteLength_slice_le (cs : List Char) (start stop : Nat) :
    byteLength (slice cs start stop) ≤ byteLength cs :=
  Nat.le_trans (byteLength_takeBytes_le _ _) (byteLength_dropBytes_le _ _)

/-- The bytes of a part are the part. -/
theorem slice_part (before part after : List Char) :
    slice (before ++ (part ++ after)) (byteLength before) (byteLength before + byteLength part) =
      part := by
  have hdrop := dropBytes_append before (part ++ after) 0
  rw [Nat.add_zero, dropBytes_zero] at hdrop
  rw [slice, hdrop, Nat.add_sub_cancel_left, takeBytes_append_of_le _ (Nat.le_refl _),
    takeBytes_self]

/-- An element of two lists put together is one of the second or one of the first. -/
theorem append_eq_append_cons {α : Type} {xs ys before after : List α} {a : α}
    (h : xs ++ ys = before ++ a :: after) :
    (∃ more, before = xs ++ more ∧ ys = more ++ a :: after) ∨
      ∃ more, xs = before ++ a :: more ∧ after = more ++ ys := by
  rcases List.append_eq_append_iff.1 h with h | ⟨more, rfl, hmore⟩
  · exact .inl h
  · cases more with
    | nil => exact .inl ⟨[], by simp, hmore.symm⟩
    | cons b more =>
      obtain ⟨rfl, rfl⟩ := List.cons.inj hmore
      exact .inr ⟨more, rfl, rfl⟩

/-- Bytes before offset `n` are whole characters. -/
def Cut (cs : List Char) (n : Nat) : Prop :=
  ∃ before after, cs = before ++ after ∧ byteLength before = n

theorem cut_zero (cs : List Char) : Cut cs 0 := ⟨[], cs, rfl, rfl⟩

theorem cut_byteLength (cs : List Char) : Cut cs (byteLength cs) := ⟨cs, [], by simp, rfl⟩

theorem Cut.le (h : Cut cs n) : n ≤ byteLength cs := by
  obtain ⟨before, after, rfl, rfl⟩ := h
  simp

/-- A cut of a part is a cut of the whole. -/
theorem Cut.within (before after : List Char) (h : Cut cs n) :
    Cut (before ++ (cs ++ after)) (byteLength before + n) := by
  obtain ⟨left, right, rfl, rfl⟩ := h
  exact ⟨before ++ left, right ++ after, by simp, by simp⟩

/-- Between two cuts stands a part. -/
theorem Cut.exists_part (hm : Cut cs m) (hn : Cut cs n) (hle : m ≤ n) :
    ∃ before part after, cs = before ++ (part ++ after) ∧ byteLength before = m ∧
      byteLength before + byteLength part = n := by
  obtain ⟨before, rest, rfl, rfl⟩ := hm
  obtain ⟨upTo, after, hsplit, rfl⟩ := hn
  rcases List.append_eq_append_iff.1 hsplit with ⟨part, rfl, rfl⟩ | ⟨part, rfl, rfl⟩
  · exact ⟨before, part, after, rfl, rfl, (byteLength_append ..).symm⟩
  · -- the second cut would stand before the first
    rw [byteLength_append] at hle
    obtain rfl : part = [] := byteLength_eq_zero_iff.1 (by omega)
    exact ⟨_, [], rest, by simp, rfl, by simp⟩

/-- Two slices that meet are one slice. -/
theorem slice_append {k : Nat} (hk : Cut cs k) (hm : Cut cs m) (hkm : k ≤ m) (hmn : m ≤ n) :
    slice cs k n = slice cs k m ++ slice cs m n := by
  obtain ⟨before, part, after, rfl, rfl, rfl⟩ := hk.exists_part hm hkm
  have hfront := dropBytes_append before (part ++ after) 0
  have hback := dropBytes_append (before ++ part) after 0
  simp only [byteLength_append, Nat.add_zero, dropBytes_zero, List.append_assoc] at hfront hback
  have hlength : n - byteLength before = byteLength part + (n - (byteLength before + byteLength part)) := by
    omega
  rw [slice_part, slice, hfront, hlength, takeBytes_append, slice, hback]

/-- A slice of a part is the slice of the whole that stands as much further on. -/
theorem slice_within (before after : List Char) (hm : Cut cs m) (hn : n ≤ byteLength cs) :
    slice (before ++ (cs ++ after)) (m + byteLength before) (n + byteLength before) =
      slice cs m n := by
  obtain ⟨left, right, rfl, rfl⟩ := hm
  have hdrop := dropBytes_append (before ++ left) (right ++ after) 0
  have hdrop' := dropBytes_append left right 0
  simp only [byteLength_append, Nat.add_zero, dropBytes_zero, List.append_assoc] at hdrop hdrop'
  rw [byteLength_append] at hn
  rw [slice, slice, Nat.add_sub_add_right, List.append_assoc, Nat.add_comm _ (byteLength before),
    hdrop, hdrop', takeBytes_append_of_le _ (by omega)]

end Prose.Text
