import Mathlib.Data.List.Nodup
import Prose.Proofs.Machine.Effects

/- The table of variables and the order of their names. The two are kept apart and change
   together: at any time they have the same names, each of them once, and what is found
   under a name has that name. From one memory to the next no variable is lost, none moves
   in the order and none changes its shape, and only targets change their values. -/
namespace Prose.Machine

namespace Memory

variable {m m' : Memory} {name shape other : String} {value : Value}

/-- The names that something can be found under. -/
def names (m : Memory) : List String := m.table.map Prod.fst

/-! Finding what was declared and stored. -/

theorem find?_eq_none_iff : m.find? name = none ↔ name ∉ m.names := by
  rw [find?, List.lookup_eq_none_iff, names, List.mem_map]
  constructor
  · rintro h ⟨entry, hentry, rfl⟩
    exact absurd (h entry hentry) (by simp)
  · intro h entry hentry
    simp only [bne_iff_ne, ne_eq]
    rintro rfl
    exact h ⟨entry, hentry, rfl⟩

theorem declare_eq_ok_iff : m.declare name shape value = .ok m' ↔
    name ∉ m.names ∧ m' = ⟨(name, ⟨name, shape, value⟩) :: m.table, m.order ++ [name]⟩ := by
  rw [← find?_eq_none_iff, declare]
  cases m.find? name with
  | none => simp [eq_comm]
  | some v => simp

/-- Storing keeps all names in their places in the table. -/
theorem table_store (m : Memory) (name : String) (value : Value) :
    (m.store name value).table = m.table.map fun entry =>
      (entry.1, if entry.1 = name then { entry.2 with value := value } else entry.2) := by
  refine List.map_congr_left fun entry _ => ?_
  by_cases h : entry.1 = name <;> simp [h]

theorem names_store (m : Memory) (name : String) (value : Value) :
    (m.store name value).names = m.names := by
  rw [names, table_store, List.map_map]
  rfl

/-- Storing changes the value of one variable. -/
theorem find?_store (m : Memory) (name : String) (value : Value) (other : String) :
    (m.store name value).find? other =
      (m.find? other).map fun v => if other = name then { v with value := value } else v := by
  rw [find?, find?, table_store]
  induction m.table with
  | nil => rfl
  | cons entry table ih =>
    rw [List.map_cons, List.lookup_cons, List.lookup_cons, ih]
    cases hkey : other == entry.1 with
    | false => rfl
    | true => rw [eq_of_beq hkey]; rfl

/-- Giving a name a value declares it or stores the value. -/
theorem assign_eq_ok (h : m.assign name value = .ok m') :
    m.declare name value.typeName value = .ok m' ∨ m' = m.store name value := by
  rw [assign] at h
  split at h
  · exact .inr (Except.ok.inj h).symm
  · exact .inl h

/-! The table and the order. -/

/-- The table and the order have the same names, each of them once, and what is found under
    a name has that name. -/
structure InStep (m : Memory) : Prop where
  order_nodup : m.order.Nodup
  names_nodup : m.names.Nodup
  mem_order : ∀ name, name ∈ m.order ↔ name ∈ m.names
  named : ∀ entry ∈ m.table, entry.2.name = entry.1

theorem inStep_empty : InStep {} := ⟨.nil, .nil, fun _ => .rfl, nofun⟩

theorem InStep.declare (h : m.InStep) (hm' : m.declare name shape value = .ok m') : m'.InStep := by
  obtain ⟨hnew, rfl⟩ := declare_eq_ok_iff.1 hm'
  have hnotOrdered : name ∉ m.order := fun hmem => hnew ((h.mem_order name).1 hmem)
  refine ⟨?_, List.nodup_cons.2 ⟨hnew, h.names_nodup⟩, fun other => ?_, ?_⟩
  · rw [← List.concat_eq_append]
    exact h.order_nodup.concat hnotOrdered
  · simp [names, h.mem_order, or_comm]
  · exact List.forall_mem_cons.2 ⟨rfl, h.named⟩

theorem InStep.store (h : m.InStep) (name : String) (value : Value) :
    (m.store name value).InStep := by
  refine ⟨h.order_nodup, ?_, fun other => ?_, ?_⟩
  · rw [names_store]
    exact h.names_nodup
  · rw [names_store]
    exact h.mem_order other
  · rw [table_store]
    refine List.forall_mem_map.2 fun entry hentry => ?_
    have hnamed := h.named entry hentry
    split <;> exact hnamed

theorem InStep.assign (h : m.InStep) (hm' : m.assign name value = .ok m') : m'.InStep := by
  rcases assign_eq_ok hm' with hdeclare | rfl
  · exact h.declare hdeclare
  · exact h.store name value

/-! One memory after another. -/

/-- The first memory is in the second: the order goes on behind the names that it had, every
    variable is still there with its name and its shape, and only names that were written to
    have new values. -/
structure GrowsTo (written : String → Prop) (m m' : Memory) : Prop where
  order : m.order <+: m'.order
  found : ∀ name v, m.find? name = some v → ∃ value, m'.find? name = some { v with value := value } ∧
    (¬ written name → value = v.value)

variable {written : String → Prop}

theorem GrowsTo.refl (m : Memory) : m.GrowsTo written m :=
  ⟨List.prefix_refl _, fun _ v h => ⟨v.value, h, fun _ => rfl⟩⟩

theorem GrowsTo.trans {l : Memory} (h : l.GrowsTo written m) (h' : m.GrowsTo written m') :
    l.GrowsTo written m' := by
  refine ⟨h.order.trans h'.order, fun name v hv => ?_⟩
  obtain ⟨value, hfound, hsame⟩ := h.found name v hv
  obtain ⟨value', hfound', hsame'⟩ := h'.found name _ hfound
  exact ⟨value', hfound', fun hname => (hsame' hname).trans (hsame hname)⟩

theorem growsTo_declare (h : m.declare name shape value = .ok m') : m.GrowsTo written m' := by
  obtain ⟨hnew, rfl⟩ := declare_eq_ok_iff.1 h
  refine ⟨List.prefix_append .., fun other v hv => ⟨v.value, ?_, fun _ => rfl⟩⟩
  have hne : other ≠ name := by
    rintro rfl
    rw [find?_eq_none_iff.2 hnew] at hv
    cases hv
  rw [find?, List.lookup_cons, beq_false_of_ne hne]
  exact hv

theorem growsTo_store (m : Memory) (hname : written name) (value : Value) :
    m.GrowsTo written (m.store name value) := by
  refine ⟨List.prefix_refl _, fun other v hv => ?_⟩
  rw [find?_store, hv, Option.map_some]
  by_cases hother : other = name
  · rw [if_pos hother]
    exact ⟨value, rfl, fun hnot => absurd (hother ▸ hname) hnot⟩
  · rw [if_neg hother]
    exact ⟨v.value, rfl, fun _ => rfl⟩

theorem growsTo_assign (hname : written name) (h : m.assign name value = .ok m') :
    m.GrowsTo written m' := by
  rcases assign_eq_ok h with hdeclare | rfl
  · exact growsTo_declare hdeclare
  · exact growsTo_store m hname value

/-- What becomes of a memory where only some names are written to. -/
structure Becomes (written : String → Prop) (m m' : Memory) : Prop where
  inStep : m.InStep → m'.InStep
  growsTo : m.GrowsTo written m'

theorem Becomes.refl (m : Memory) : m.Becomes written m := ⟨id, .refl m⟩

theorem Becomes.trans {l : Memory} (h : l.Becomes written m) (h' : m.Becomes written m') :
    l.Becomes written m' :=
  ⟨h'.inStep ∘ h.inStep, h.growsTo.trans h'.growsTo⟩

end Memory

open Memory

/-! Runs. -/

variable {written : String → Prop}

theorem keeps_declare (name shape : String) (value : Value) :
    Keeps (Becomes written) (Run.declare name shape value) := by
  intro m
  rw [run_declare]
  rcases h : m.declare name shape value with e | m'
  · exact .refl m
  · exact ⟨fun hm => hm.declare h, growsTo_declare h⟩

theorem keeps_writeReference {r : Reference} (hr : r.owners = [] → written r.name) (value : Value) :
    Keeps (Becomes written) (writeReference r value) := by
  intro m
  rw [run_writeReference]
  rcases h : (do m.assign (← localName r) value : Except RunError Memory) with e | m'
  · exact .refl m
  · -- what has an owner is refused, so the name that is written is the reference's own
    rcases hlocal : localName r with e | name <;> rw [hlocal] at h
    · cases h
    · obtain ⟨howners, rfl⟩ := localName_eq_ok_iff.1 hlocal
      exact ⟨fun hm => hm.assign h, growsTo_assign (hr howners) h⟩

/-- The names that are written to are those of targets that nothing owns. -/
theorem stepwise_becomes (targets : List Reference) :
    Stepwise (Becomes fun name => ∃ r ∈ targets, r.owners = [] ∧ r.name = name) targets where
  refl := .refl
  trans := .trans
  write r hr value := keeps_writeReference (fun howners => ⟨r, hr, howners, rfl⟩) value

/-- The memory after some documents were run one after the other, whether they succeeded or
    stopped. -/
def after (ds : List Document) : Memory := ds.foldl (fun m d => (execute d m).2) {}

theorem inStep_after (ds : List Document) : (after ds).InStep := by
  rw [after]
  generalize hm : ({} : Memory) = m
  have h : m.InStep := hm ▸ inStep_empty
  clear hm
  induction ds generalizing m with
  | nil => exact h
  | cons d ds ih =>
    have hstep := (stepwise_becomes (Node.document d).targets).execute d keeps_declare m
    exact ih _ (hstep.inStep h)

/-- Whatever documents are run, the table and the order stay in step. Running one more, in
    any memory, keeps the order of the names that there are and the shapes of all variables;
    the values of those that are no target in the document are what they were. -/
theorem memory_integrity (ds : List Document) (d : Document) (m : Memory) :
    (after ds).InStep ∧ m.order <+: (execute d m).2.order ∧
      ∀ name v, m.find? name = some v → ∃ v', (execute d m).2.find? name = some v' ∧
        v'.name = v.name ∧ v'.shape = v.shape ∧
        ((∀ r ∈ (Node.document d).targets, r.owners = [] → r.name ≠ name) → v'.value = v.value) := by
  have hstep := (stepwise_becomes (Node.document d).targets).execute d keeps_declare m
  refine ⟨inStep_after ds, hstep.growsTo.order, fun name v hv => ?_⟩
  obtain ⟨value, hfound, hsame⟩ := hstep.growsTo.found name v hv
  refine ⟨_, hfound, rfl, rfl, fun hname => hsame ?_⟩
  rintro ⟨r, hr, howners, hrname⟩
  exact hname r hr howners hrname

end Prose.Machine
