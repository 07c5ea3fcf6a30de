import Prose.Proofs.Grammar.Composed

/- Guarded rules. A reader has its tokens in one list, the closing one behind them, and counts how
   deep it is nested. It looks at a token by its index and cuts runs of tokens out between two
   indices; a guarded rule stops for good where an index or a cut is not inside of the list, and
   where a loop has gone round more often than there are tokens. A rule that goes back where it
   fails does so whatever it is made of. -/
namespace Prose.Grammar

/-- What reads the tokens of a phrase. -/
structure Reader where
  /-- The tokens, with the closing one. -/
  tokens : List Token
  /-- How many levels of nesting the reader is in. -/
  depth : Nat
  maxDepth : Nat
  /-- Whether results are kept. -/
  memoize : Bool
  /-- Reads a branch, if every index on the way is inside. -/
  branch : List Token → Option (Stmt × Bool)
  progress : Progress

/-- A rule of a reader. Without a result it has left the tokens, or not come to an end. -/
def Guarded (α : Type) := Reader → Option (Option α × Reader)

namespace Guarded

instance : Monad Guarded where
  pure a := fun r => some (some a, r)
  bind x f := fun r =>
    match x r with
    | some (some a, r) => f a r
    | some (none, r) => some (none, r)
    | none => none

variable {α β : Type}

/-- Stops for good. -/
def stuck : Guarded α := fun _ => none

def fail (what : String) : Guarded α :=
  fun r => some (none, { r with progress := r.progress.miss what })

/-- Something that is known without the reader, or stops for good. -/
def orStuck (a : Option α) : Guarded α := fun r => a.map fun a => (some a, r)

/-- Looks at the reader and leaves it as it is. -/
def look (f : Reader → α) : Guarded α := fun r => some (some (f r), r)

def position : Guarded Nat := look fun r => r.progress.pos

def moveTo (i : Nat) : Guarded Unit :=
  fun r => some (some (), { r with progress := { r.progress with pos := i } })

/-- The index of the closing token. -/
def endIndex : Guarded Nat := look fun r => r.tokens.length - 1

/-- The token at an index. -/
def token (i : Nat) : Guarded Token := fun r => r.tokens[i]?.map fun t => (some t, r)

/-- The tokens from one index up to another, if the indices are in order and inside. -/
def cutOf (ts : List Token) (first last : Nat) : Option (List Token) :=
  if first ≤ last ∧ last ≤ ts.length then some ((ts.drop first).take (last - first)) else none

/-- The tokens of the reader from one index up to another. -/
def cut (first last : Nat) : Guarded (List Token) :=
  fun r => (cutOf r.tokens first last).map fun ts => (some ts, r)

/-- The token at the cursor. -/
def current : Guarded Token := do token (← position)

/-- The kinds of the tokens so far ahead of the cursor. No index is too far. -/
def ahead : Guarded (Nat → Kind) :=
  look fun r i => (r.tokens[r.progress.pos + i]?.map Token.kind).getD .stop

/-- The index of the first token from `first` on that has one of the kinds. No index is too far. -/
def find? (first : Nat) (kinds : List Kind) : Guarded (Option Nat) :=
  look fun r => ((r.tokens.drop first).findIdx? fun t => kinds.contains t.kind).map (· + first)

def here : Guarded Kind := do return (← current).kind

def at? (k : Kind) : Guarded Bool := do return (← here) == k

def atAny? (kinds : List Kind) : Guarded Bool := do return kinds.contains (← here)

/-- Takes the token at the cursor. The closing token is never passed. -/
def advance : Guarded Token := do
  let t ← current
  if t.kind == .stop then pure t
  else
    let i ← position
    moveTo (i + 1)
    pure t

def skipAny (kinds : List Kind) : Guarded Unit := do
  if ← atAny? kinds then let _ ← advance

def eat (k : Kind) : Guarded Token := do
  if ← at? k then advance else fail k.describe

def eatAny (kinds : List Kind) (description : String) : Guarded Token := do
  if ← atAny? kinds then advance else fail description

/-- The span from the token at index `first` up to the cursor. -/
def spanFrom (first : Nat) : Guarded Span := do
  let start ← token (min first (← endIndex))
  let i ← position
  if first < i then
    let final ← token (i - 1)
    pure ⟨start.start, max final.stop start.start⟩
  else pure ⟨start.start, max start.stop start.start⟩

def attempt (x : Guarded α) : Guarded α := fun r =>
  match x r with
  | some (none, t) => some (none, { t with progress := { t.progress with pos := r.progress.pos } })
  | some (some a, t) => some (some a, t)
  | none => none

def outcome (x : Guarded α) : Guarded (Option α) := fun r => (x r).map fun (a, r) => (some a, r)

def firstOf : List (Guarded α) → Guarded α
  | [] => fun r => some (none, r)
  | x :: later => fun r =>
    match attempt x r with
    | some (none, r) => firstOf later r
    | some (some a, r) => some (some a, r)
    | none => none

def complete (x : Guarded α) : Guarded α := attempt do
  let a ← x
  if ← at? .stop then pure a else fail Kind.stop.describe

def firstComplete (xs : List (Guarded α)) : Guarded α := firstOf (xs.map complete)

/-- A rule that recurses into itself, one level deeper. -/
def nested (x : Guarded α) : Guarded α := fun r =>
  if r.maxDepth ≤ r.depth then fail "shallower nesting" r
  else (attempt x { r with depth := r.depth + 1 }).map fun (a, t) =>
    (a, { t with depth := t.depth - 1 })

def restore (result : Result α) : Guarded α := fun r =>
  match result with
  | some (a, stop) => some (some a, { r with progress := { r.progress with pos := stop } })
  | none => some (none, r)

def keep (store : Progress → Result α → Progress) (x : Guarded α) : Guarded α := fun r =>
  (attempt x r).map fun (a, t) =>
    (a, { t with progress := store t.progress (a.map fun a => (a, t.progress.pos)) })

def keptExpression (rule : Kept) (x : Guarded Expr) : Guarded Expr := fun r =>
  if r.memoize then
    match r.progress.expressions.lookup (rule, r.progress.pos) with
    | some result => restore result r
    | none =>
      let key := (rule, r.progress.pos)
      keep (fun t result => { t with expressions := (key, result) :: t.expressions }) x r
  else attempt x r

/-- References are kept by the cursor and by how much deeper they may be nested. -/
def keptReference (x : Guarded Reference) : Guarded Reference := fun r =>
  let key := (r.progress.pos, r.maxDepth - r.depth)
  if r.memoize then
    match r.progress.references.lookup key with
    | some result => restore result r
    | none => keep (fun t result => { t with references := (key, result) :: t.references }) x r
  else attempt x r

end Guarded

/-! ### Progress -/

namespace Phrase

variable {p : Phrase} {s : Progress} {α : Type}

/-- A kept result leads on from its index, and not past the end. -/
def LeadsOn (p : Phrase) (i : Nat) (r : Result α) : Prop :=
  ∀ a stop, r = some (a, stop) → i < stop ∧ stop ≤ p.size

/-- The cursor is inside of the phrase, and all kept results lead on. -/
structure Onward (p : Phrase) (s : Progress) : Prop where
  pos : s.pos ≤ p.size
  expressions : ∀ e ∈ s.expressions, p.LeadsOn e.1.2 e.2
  references : ∀ e ∈ s.references, p.LeadsOn e.1.1 e.2

namespace Onward

theorem start : p.Onward {} := ⟨Nat.zero_le _, nofun, nofun⟩

theorem moved (h : p.Onward s) {i : Nat} (hi : i ≤ p.size) : p.Onward (s.moved i) :=
  ⟨hi, h.expressions, h.references⟩

theorem miss (h : p.Onward s) (what : String) : p.Onward (s.miss what) := by
  rw [Progress.miss_eq_note]
  exact ⟨h.pos, h.expressions, h.references⟩

theorem keepExpression (h : p.Onward s) {k : Kept} {i : Nat} {r : Result Expr}
    (hr : p.LeadsOn i r) : p.Onward { s with expressions := ((k, i), r) :: s.expressions } :=
  ⟨h.pos, List.forall_mem_cons.2 ⟨hr, h.expressions⟩, h.references⟩

theorem keepReference (h : p.Onward s) {room i : Nat} {r : Result Reference}
    (hr : p.LeadsOn i r) : p.Onward { s with references := ((i, room), r) :: s.references } :=
  ⟨h.pos, h.expressions, List.forall_mem_cons.2 ⟨hr, h.references⟩⟩

end Onward

theorem miss_pos (s : Progress) (what : String) : (s.miss what).pos = s.pos := by
  rw [Progress.miss_eq_note]
  rfl

/-- The reader of a phrase that is `base` levels deep itself, at a progress and some levels
    deeper. -/
def reader (p : Phrase) (base levels : Nat) (s : Progress) : Reader where
  tokens := p.tokens ++ [p.stop]
  depth := base + levels
  maxDepth := base + p.room
  memoize := p.memoize
  branch := fun ts => some (p.branch ts)
  progress := s

/-- Only the closing token is one. -/
def OnlyStop (p : Phrase) : Prop := ∀ t ∈ p.tokens, t.kind ≠ .stop

end Phrase

namespace Guarded

variable {α β : Type} {p : Phrase} {base levels i j : Nat} {s : Progress}

theorem bind_some {w : Guarded α} {v : α → Guarded β} {r t : Reader} {a : α}
    (h : w r = some (some a, t)) : (w >>= v) r = v a t := by
  simp only [bind, h]

theorem bind_none {w : Guarded α} {v : α → Guarded β} {r t : Reader}
    (h : w r = some (none, t)) : (w >>= v) r = some (none, t) := by
  simp only [bind, h]

/-! ### Looking at tokens -/

section Tokens

theorem length_reader : (p.reader base levels s).tokens.length = p.size + 1 := by
  rw [Phrase.reader, List.length_append, List.length_singleton, Phrase.size]

theorem position_reader :
    position (p.reader base levels s) = some (some s.pos, p.reader base levels s) := rfl

theorem endIndex_reader :
    endIndex (p.reader base levels s) = some (some p.size, p.reader base levels s) := by
  rw [endIndex, look, length_reader, Nat.add_sub_cancel]

theorem getElem?_reader (hi : i ≤ p.size) :
    (p.reader base levels s).tokens[i]? = some (p.tokenAt i) := by
  rw [Phrase.reader, Phrase.tokenAt]
  rcases Nat.lt_or_eq_of_le hi with hlt | rfl
  · rw [List.getElem?_append_left hlt, List.getElem?_eq_getElem hlt, Option.getD_some]
  · rw [Phrase.size, List.getElem?_concat_length, List.getElem?_eq_none (Nat.le_refl _),
      Option.getD_none]

theorem token_reader (hi : i ≤ p.size) :
    token i (p.reader base levels s) = some (some (p.tokenAt i), p.reader base levels s) := by
  rw [token, getElem?_reader hi, Option.map_some]

/-- No index is too far for the closing token. -/
theorem tokenAt_min (i : Nat) : p.tokenAt (min i p.size) = p.tokenAt i := by
  rcases Nat.le_total i p.size with hle | hle
  · rw [Nat.min_eq_left hle]
  · rw [Nat.min_eq_right hle, Phrase.tokenAt, Phrase.tokenAt, List.getElem?_eq_none hle,
      List.getElem?_eq_none (Nat.le_refl p.size)]

theorem cut_reader (hij : i ≤ j) (hj : j ≤ p.size) :
    cut i j (p.reader base levels s) = some (some (p.between i j), p.reader base levels s) := by
  have hle : j ≤ (p.reader base levels s).tokens.length := by
    rw [length_reader]
    omega
  have htake : ((p.reader base levels s).tokens.drop i).take (j - i) = p.between i j := by
    rw [Phrase.reader, Phrase.between, List.drop_append_of_le_length (Nat.le_trans hij hj),
      List.take_append_of_le_length]
    rw [List.length_drop]
    simp only [Phrase.size] at hj
    omega
  rw [cut, cutOf, if_pos ⟨hij, hle⟩, htake, Option.map_some]

theorem current_reader (hs : p.Onward s) :
    current (p.reader base levels s) = some (some (p.tokenAt s.pos), p.reader base levels s) :=
  token_reader hs.pos

theorem ahead_reader :
    ahead (p.reader base levels s) =
      some (some fun i => p.kindAt (s.pos + i), p.reader base levels s) := by
  rw [ahead, look]
  congr 3
  funext i
  rw [Phrase.reader, Phrase.kindAt, Phrase.tokenAt]
  rcases Nat.lt_trichotomy (s.pos + i) p.tokens.length with hlt | heq | hgt
  · rw [List.getElem?_append_left hlt, List.getElem?_eq_getElem hlt]
    rfl
  · rw [heq, List.getElem?_concat_length, List.getElem?_eq_none (Nat.le_refl _)]
    rfl
  · rw [List.getElem?_eq_none (by rw [List.length_append, List.length_singleton]; exact hgt),
      List.getElem?_eq_none (Nat.le_of_lt hgt)]
    rfl

theorem find?_reader {kinds : List Kind} (hk : .stop ∉ kinds) (hi : i ≤ p.size) :
    find? i kinds (p.reader base levels s) =
      some (some (p.find? i kinds), p.reader base levels s) := by
  have hstop : kinds.contains p.stop.kind = false := by
    rw [Bool.eq_false_iff, ne_eq, List.contains_iff_mem]
    exact hk
  rw [find?, look, Phrase.find?]
  congr 4
  rw [Phrase.reader, List.drop_append_of_le_length hi, List.findIdx?_append,
    List.findIdx?_singleton, hstop]
  simp

theorem here_reader (hs : p.Onward s) :
    here (p.reader base levels s) = some (some (p.kindAt s.pos), p.reader base levels s) := by
  rw [here, bind_some (current_reader hs)]
  rfl

theorem at?_reader (k : Kind) (hs : p.Onward s) :
    at? k (p.reader base levels s) = some (some (p.kindAt s.pos == k), p.reader base levels s) := by
  rw [at?, bind_some (here_reader hs)]
  rfl

theorem atAny?_reader (kinds : List Kind) (hs : p.Onward s) :
    atAny? kinds (p.reader base levels s) =
      some (some (kinds.contains (p.kindAt s.pos)), p.reader base levels s) := by
  rw [atAny?, bind_some (here_reader hs)]
  rfl

theorem kindAt_ne_stop (hp : p.OnlyStop) (hi : i < p.size) : p.kindAt i ≠ .stop := by
  rw [Phrase.kindAt, Phrase.tokenAt, List.getElem?_eq_getElem hi]
  exact hp _ (List.getElem_mem hi)

theorem advance_reader (hp : p.OnlyStop) (hs : p.Onward s) (hlt : s.pos < p.size) :
    advance (p.reader base levels s) =
      some (some (p.tokenAt s.pos), p.reader base levels (s.moved (s.pos + 1))) := by
  have hkind : ¬((p.tokenAt s.pos).kind == .stop) = true := by
    rw [beq_iff_eq]
    exact kindAt_ne_stop hp hlt
  rw [advance, bind_some (current_reader hs), if_neg hkind]
  rfl

end Tokens

/-! ### Back to where a rule started -/

/-- A rule that fails leaves the cursor where it was. -/
def Returns (w : Guarded α) : Prop :=
  ∀ r t, w r = some (none, t) → t.progress.pos = r.progress.pos

variable {w : Guarded α}

theorem returns_attempt : Returns (attempt w) := by
  intro r t h
  rw [attempt] at h
  split at h
  · cases h
    rfl
  · cases h
  · cases h

theorem returns_complete : Returns (complete w) := returns_attempt

theorem returns_firstOf (ws : List (Guarded α)) : Returns (firstOf ws) := by
  induction ws with
  | nil =>
    intro r t h
    cases h
    rfl
  | cons w ws ih =>
    intro r t h
    simp only [firstOf] at h
    split at h
    · next u hu => exact (ih u t h).trans (returns_attempt r u hu)
    · cases h
    · cases h

theorem returns_nested : Returns (nested w) := by
  intro r t h
  rw [nested] at h
  split at h
  · cases h
    exact Phrase.miss_pos _ _
  · obtain ⟨⟨a, u⟩, hu, heq⟩ := Option.map_eq_some_iff.1 h
    obtain ⟨rfl, rfl⟩ := Prod.mk.inj heq
    exact returns_attempt { r with depth := r.depth + 1 } u hu

theorem returns_restore (result : Result α) : Returns (restore result) := by
  rcases result with _ | ⟨a, stop⟩
  · intro r t h
    cases h
    rfl
  · intro r t h
    cases h

theorem returns_keep (store : Progress → Result α → Progress)
    (hpos : ∀ t r, (store t r).pos = t.pos) : Returns (keep store w) := by
  intro r t h
  obtain ⟨⟨a, u⟩, hu, heq⟩ := Option.map_eq_some_iff.1 h
  obtain ⟨rfl, rfl⟩ := Prod.mk.inj heq
  exact (hpos _ _).trans (returns_attempt r u hu)

theorem returns_keptExpression (k : Kept) (w : Guarded Expr) : Returns (keptExpression k w) := by
  intro r t h
  rw [keptExpression] at h
  split at h
  · split at h
    · exact returns_restore _ r t h
    · refine returns_keep _ ?_ r t h
      exact fun _ _ => rfl
  · exact returns_attempt r t h

theorem returns_keptReference (w : Guarded Reference) : Returns (keptReference w) := by
  intro r t h
  simp only [keptReference] at h
  split at h
  · split at h
    · exact returns_restore _ r t h
    · refine returns_keep _ ?_ r t h
      exact fun _ _ => rfl
  · exact returns_attempt r t h

end Guarded

end Prose.Grammar
