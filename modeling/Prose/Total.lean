/- Totals: a number for each item of a list, added up. The bytes of a text and the
   weight of a tree are totals. -/
namespace Prose

/-- The sum of the numbers that `f` gives for the items of a list. -/
def total {α : Type} (f : α → Nat) : List α → Nat
  | [] => 0
  | a :: as => f a + total f as

variable {α β : Type}

@[simp] theorem total_nil (f : α → Nat) : total f [] = 0 := rfl

@[simp] theorem total_cons (f : α → Nat) (a : α) (as : List α) :
    total f (a :: as) = f a + total f as := rfl

@[simp] theorem total_append (f : α → Nat) (as bs : List α) :
    total f (as ++ bs) = total f as + total f bs := by
  induction as with
  | nil => rw [List.nil_append, total_nil, Nat.zero_add]
  | cons a as ih => rw [List.cons_append, total_cons, total_cons, ih, Nat.add_assoc]

theorem total_map (f : β → Nat) (g : α → β) (as : List α) :
    total f (as.map g) = total (fun a => f (g a)) as := by
  induction as with
  | nil => rfl
  | cons a as ih => rw [List.map_cons, total_cons, total_cons, ih]

/-- No item counts for more than all of them. -/
theorem le_total_of_mem (f : α → Nat) {a : α} {as : List α} (h : a ∈ as) : f a ≤ total f as := by
  induction as with
  | nil => exact absurd h List.not_mem_nil
  | cons b as ih =>
    rw [total_cons]
    rcases List.mem_cons.1 h with rfl | h
    · exact Nat.le_add_right _ _
    · exact Nat.le_trans (ih h) (Nat.le_add_left _ _)

end Prose
