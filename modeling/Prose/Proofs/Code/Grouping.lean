import Mathlib.Data.List.Basic
import Prose.Code.Dialect
import Prose.Proofs.Grammar.Wording

/- How code is grouped. A target language reads code without parentheses by the ranks of its
   signs: an access to a member binds tightest, then multiplication and division, then addition
   and subtraction, and signs of one rank group to the left. Only signs outside of quoted texts
   and of brackets count, and what stands between them are the operands. A grouping is what the
   code is read as exactly if it has the same operands and signs in their order and no sign in
   it stands where one of another rank should. -/
namespace Prose.Code

/-- A sign between two operands. -/
inductive Sign where
  | member
  | math (op : MathOp)
  deriving DecidableEq

/-- How tight a sign binds. -/
def Sign.rank : Sign → Nat
  | member => 2
  | math op => if op.isFactor then 1 else 0

/-- The sign that a character is. -/
def signOf? : Char → Option Sign
  | '.' => some .member
  | '*' => some (.math .multiply)
  | '/' => some (.math .divide)
  | '+' => some (.math .plus)
  | '-' => some (.math .minus)
  | _ => none

/-! Operands and signs of a code. -/

/-- Where in a code a character stands: within so many brackets, in a text in double quotes, or
    behind a character in a text that takes its meaning from the next one. -/
inductive Place where
  | code (depth : Nat)
  | quoted (depth : Nat)
  | escaped (depth : Nat)
  deriving DecidableEq

/-- The place behind a character, where some characters take the next one in a text with them. -/
def Place.next (escapes : Char → Bool) : Place → Char → Place
  | code depth, c =>
    if c = '"' then quoted depth
    else if c ∈ ['(', '[', '\x7b'] then code (depth + 1)
    else if c ∈ [')', ']', '\x7d'] then code (depth - 1)
    else code depth
  | quoted depth, c =>
    if c = '"' then code depth else if escapes c then escaped depth else quoted depth
  | escaped depth, _ => quoted depth

/-- Operands with signs between them: all but the last one with the sign behind it. -/
structure Row where
  front : List (String × Sign)
  last : String
  deriving DecidableEq

/-- Two rows with a sign between them. -/
def Row.join (x : Row) (sign : Sign) (y : Row) : Row := ⟨x.front ++ (x.last, sign) :: y.front, y.last⟩

/-- What has been read of a code: the operands with a sign behind them, the characters of the
    operand that is being read, the last one first, and the place. -/
structure Scan where
  front : List (String × Sign)
  current : List Char
  place : Place

namespace Scan

/-- The operand that is being read, without the spaces behind it. -/
def operand (s : Scan) : String := String.ofList (s.current.dropWhile (· == ' ')).reverse

/-- Reads one character. Spaces in front of an operand are no part of it. -/
def step (escapes : Char → Bool) (s : Scan) (c : Char) : Scan :=
  match if s.place = .code 0 then signOf? c else none with
  | some sign => ⟨s.front ++ [(s.operand, sign)], [], .code 0⟩
  | none =>
    ⟨s.front, if c = ' ' ∧ s.current = [] then [] else c :: s.current, s.place.next escapes c⟩

/-- The operands and signs that have been read. -/
def row (s : Scan) : Row := ⟨s.front, s.operand⟩

end Scan

/-- Reads a code from its start. -/
def scan (escapes : Char → Bool) (code : String) : Scan :=
  code.toList.foldl (Scan.step escapes) ⟨[], [], .code 0⟩

/-- Whether a code ends outside of quoted texts and brackets. -/
def Closed (escapes : Char → Bool) (code : String) : Prop := (scan escapes code).place = .code 0

/-- The operands and signs of a code. -/
def rowOf (escapes : Char → Bool) (code : String) : Row := (scan escapes code).row

/-- The place behind some characters, if none of them is a sign that counts. -/
def Place.follow (escapes : Char → Bool) : Place → List Char → Option Place
  | place, [] => some place
  | place, c :: cs =>
    if place = .code 0 ∧ (signOf? c).isSome then none else (place.next escapes c).follow escapes cs

/-! Groups of operands. -/

/-- Operands joined two by two. -/
inductive Grouping where
  | operand (text : String)
  | binary (sign : Sign) (first second : Grouping)
  deriving DecidableEq

namespace Grouping

/-- The row of operands and signs, with nothing that groups them. -/
def flatten : Grouping → Row
  | operand text => ⟨[], text⟩
  | binary sign first second => first.flatten.join sign second.flatten

/-- Joins a group to what stands in front of it. The sign takes its first operand from the end
    of what it binds tighter than. -/
def attach : Grouping → Sign → Grouping → Grouping
  | binary outer first second, sign, t =>
    if outer.rank < sign.rank then binary outer first (second.attach sign t)
    else binary sign (binary outer first second) t
  | operand text, sign, t => binary sign (operand text) t

/-- Joins a group to what was read in front of it, if there is anything. -/
def place (before : Option (Grouping × Sign)) (t : Grouping) : Grouping :=
  match before with
  | none => t
  | some (front, sign) => front.attach sign t

/-- Groups operands from left to right. -/
def ofFront : Option (Grouping × Sign) → List (String × Sign) → String → Grouping
  | before, [], last => place before (operand last)
  | before, (text, sign) :: more, last => ofFront (some (place before (operand text), sign)) more last

/-- The grouping of a row by the ranks of its signs. -/
def ofRow (x : Row) : Grouping := ofFront none x.front x.last

/-- All signs at the root bind as tight as a rank asks for. -/
def Binds (rank : Nat) : Grouping → Prop
  | operand _ => True
  | binary sign _ _ => rank ≤ sign.rank

/-- No sign below another binds less tight, and to the right of it each one binds tighter. -/
def Canonical : Grouping → Prop
  | operand _ => True
  | binary sign first second => first.Canonical ∧ second.Canonical ∧ first.Binds sign.rank ∧
      second.Binds (sign.rank + 1)

variable {t u v : Grouping} {sign other : Sign} {rank : Nat} {x : Row}

theorem Binds.mono {less : Nat} (h : t.Binds rank) (hle : less ≤ rank) : t.Binds less := by
  cases t with
  | operand => trivial
  | binary => exact Nat.le_trans hle h

theorem binds_zero (t : Grouping) : t.Binds 0 := by
  cases t with
  | operand => trivial
  | binary => exact Nat.zero_le _

theorem attach_of_binds (h : t.Binds sign.rank) (u : Grouping) : t.attach sign u = binary sign t u := by
  cases t with
  | operand => rfl
  | binary outer => rw [attach, if_neg (Nat.not_lt.2 h)]

/-- A sign that binds tighter than the one before it goes on with its second operand. -/
theorem attach_attach (h : other.rank < sign.rank) (ht : t.Binds sign.rank) :
    (u.attach other t).attach sign v = u.attach other (binary sign t v) := by
  induction u with
  | operand text => rw [attach, attach, attach, if_pos h, attach_of_binds ht]
  | binary outer first second _ ih =>
    rw [attach, attach]
    split
    · next hlt => rw [attach, if_pos (Nat.lt_trans hlt h), ih]
    · rw [attach, if_pos h, attach_of_binds ht]

theorem flatten_attach : (t.attach sign u).flatten = t.flatten.join sign u.flatten := by
  induction t with
  | operand => rfl
  | binary outer first second _ ih =>
    rw [attach]
    split
    · rw [flatten, ih, flatten]
      simp only [Row.join, List.append_assoc, List.cons_append]
    · rfl

theorem Binds.attach (ht : t.Binds rank) (hrank : rank ≤ sign.rank) : (t.attach sign u).Binds rank := by
  cases t with
  | operand => exact hrank
  | binary outer first second =>
    rw [Grouping.attach]
    split
    · exact ht
    · exact hrank

theorem Canonical.attach (ht : t.Canonical) (hu : u.Canonical) (hbinds : u.Binds (sign.rank + 1)) :
    (t.attach sign u).Canonical := by
  induction t with
  | operand => exact ⟨trivial, hu, trivial, hbinds⟩
  | binary outer first second _ ih =>
    rw [Grouping.attach]
    split
    · next hlt =>
      obtain ⟨hfirst, hsecond, hleft, hright⟩ := ht
      exact ⟨hfirst, ih hsecond, hleft, hright.attach hlt⟩
    · next hle => exact ⟨ht, hu, Nat.not_lt.1 hle, hbinds⟩

/-! What a row is grouped as. -/

theorem flatten_ofFront {before : Option (Grouping × Sign)} {front : List (String × Sign)}
    {last : String} : (ofFront before front last).flatten =
      match before with
      | none => ⟨front, last⟩
      | some (t, sign) => t.flatten.join sign ⟨front, last⟩ := by
  induction front generalizing before with
  | nil =>
    cases before with
    | none => rfl
    | some b => exact flatten_attach
  | cons item front ih =>
    rw [ofFront, ih]
    cases before with
    | none => rfl
    | some b =>
      simp only [place, flatten_attach, flatten, Row.join, List.append_assoc, List.cons_append,
        List.nil_append]

theorem canonical_ofFront {before : Option (Grouping × Sign)} {front : List (String × Sign)}
    {last : String} (h : ∀ b ∈ before, b.1.Canonical) : (ofFront before front last).Canonical := by
  have hplace (text : String) {before : Option (Grouping × Sign)} (h : ∀ b ∈ before, b.1.Canonical) :
      (place before (operand text)).Canonical := by
    cases before with
    | none => trivial
    | some b => exact (h b rfl).attach trivial trivial
  induction front generalizing before with
  | nil => exact hplace last h
  | cons item front ih =>
    refine ih fun b hb => ?_
    obtain rfl := Option.some.inj hb
    exact hplace item.1 h

/-- A group whose signs bind tighter than the one in front of it is read as one operand of that
    sign, whatever is read behind it. -/
theorem ofFront_flatten {before : Option (Grouping × Sign)} (ht : t.Canonical)
    (hbefore : ∀ b ∈ before, t.Binds (b.2.rank + 1)) :
    ofFront before t.flatten.front t.flatten.last = place before t ∧
    ∀ sign more last, ofFront before (t.flatten.front ++ (t.flatten.last, sign) :: more) last =
      ofFront (some (place before t, sign)) more last := by
  induction t generalizing before with
  | operand => exact ⟨rfl, fun _ _ _ => rfl⟩
  | binary sign first second ihfirst ihsecond =>
    obtain ⟨hfirst, hsecond, hleft, hright⟩ := ht
    have hfront : ∀ b ∈ before, first.Binds (b.2.rank + 1) := fun b hb => hleft.mono (hbefore b hb)
    have hgiven : ∀ b ∈ some (place before first, sign), second.Binds (b.2.rank + 1) :=
      fun b hb => Option.some.inj hb ▸ hright
    obtain ⟨hlast, hmore⟩ := ihsecond hsecond hgiven
    have hgroup : place (some (place before first, sign)) second =
        place before (binary sign first second) := by
      cases before with
      | none => exact attach_of_binds hleft second
      | some b => exact attach_attach (hbefore b rfl) hleft
    obtain ⟨-, hrest⟩ := ihfirst hfirst hfront
    -- the first operand is read as one group, and the second one behind it
    constructor
    · calc ofFront before (first.flatten.front ++ (first.flatten.last, sign) :: second.flatten.front)
            second.flatten.last
          = ofFront (some (place before first, sign)) second.flatten.front second.flatten.last :=
            hrest _ _ _
        _ = place (some (place before first, sign)) second := hlast
        _ = place before (binary sign first second) := hgroup
    · intro behind more last
      calc ofFront before ((first.flatten.front ++ (first.flatten.last, sign) :: second.flatten.front) ++
              (second.flatten.last, behind) :: more) last
          = ofFront (some (place before first, sign))
              (second.flatten.front ++ (second.flatten.last, behind) :: more) last := by
            rw [List.append_assoc, List.cons_append, hrest]
        _ = ofFront (some (place (some (place before first, sign)) second, behind)) more last :=
            hmore _ _ _
        _ = ofFront (some (place before (binary sign first second), behind)) more last := by rw [hgroup]

/-- A grouping is that of a row exactly if the row is its own and it is canonical. -/
theorem ofRow_eq_iff : ofRow x = t ↔ t.flatten = x ∧ t.Canonical := by
  constructor
  · rintro rfl
    exact ⟨flatten_ofFront, canonical_ofFront fun b hb => absurd hb (Option.not_mem_none b)⟩
  · rintro ⟨rfl, ht⟩
    exact (ofFront_flatten ht fun b hb => absurd hb (Option.not_mem_none b)).1

theorem flatten_ofRow (x : Row) : (ofRow x).flatten = x := (ofRow_eq_iff.1 rfl).1

theorem canonical_ofRow (x : Row) : (ofRow x).Canonical := (ofRow_eq_iff.1 rfl).2

/-- The sign at the root of a grouping is one of its row. -/
theorem binds_of_signs (h : ∀ item ∈ t.flatten.front, rank ≤ item.2.rank) : t.Binds rank := by
  cases t with
  | operand => trivial
  | binary sign first second => exact h (first.flatten.last, sign) (by simp [flatten, Row.join])

end Grouping

/-- What a code is grouped as. -/
def grouped (escapes : Char → Bool) (code : String) : Grouping := .ofRow (rowOf escapes code)

example : grouped (fun _ => false) "a - \"b - c\" / d.e" =
    .binary (.math .minus) (.operand "a") (.binary (.math .divide) (.operand "\"b - c\"")
      (.binary .member (.operand "d") (.operand "e"))) := by decide

/-! The rows of codes that are put together. -/

variable {escapes : Char → Bool} {a b between text : String} {sign : Sign}

namespace Scan

variable {front : List (String × Sign)} {current cs : List Char} {place : Place} {c : Char}

theorem step_front : step escapes ⟨front, current, place⟩ c =
    ⟨front ++ (step escapes ⟨[], current, place⟩ c).front,
      (step escapes ⟨[], current, place⟩ c).current, (step escapes ⟨[], current, place⟩ c).place⟩ := by
  rcases hsign : (if place = .code 0 then signOf? c else none) with _ | sign
  · simp only [step, hsign, List.append_nil]
  · simp only [step, hsign, operand, List.nil_append]

/-- What was read before stays in front. -/
theorem foldl_front : cs.foldl (step escapes) ⟨front, current, place⟩ =
    ⟨front ++ (cs.foldl (step escapes) ⟨[], current, place⟩).front,
      (cs.foldl (step escapes) ⟨[], current, place⟩).current,
      (cs.foldl (step escapes) ⟨[], current, place⟩).place⟩ := by
  induction cs generalizing front current place with
  | nil => simp
  | cons c cs ih =>
    rw [List.foldl_cons, List.foldl_cons, step_front]
    generalize step escapes ⟨[], current, place⟩ c = s
    obtain ⟨more, later, next⟩ := s
    rw [ih, @ih more]
    simp only [List.append_assoc]

/-- A sign ends the operand in front of it. -/
theorem step_sign {sign : Sign} (hc : signOf? c = some sign) :
    step escapes ⟨front, current, .code 0⟩ c =
      ⟨front ++ [((⟨front, current, .code 0⟩ : Scan).operand, sign)], [], .code 0⟩ := by
  simp only [step, if_true, hc]

/-- A space behind an operand is no part of it. -/
theorem step_space (escapes : Char → Bool) (front : List (String × Sign)) (current : List Char) :
    ∃ later, step escapes ⟨front, current, .code 0⟩ ' ' = ⟨front, later, .code 0⟩ ∧
    (⟨front, later, .code 0⟩ : Scan).operand = (⟨front, current, .code 0⟩ : Scan).operand := by
  refine ⟨if current = [] then [] else ' ' :: current, ?_, ?_⟩
  · simp [step, signOf?, Place.next]
  · split
    · next h => rw [h]
    · simp [operand]

end Scan

/-! Operands. -/

namespace Place

variable {place next : Place} {cs ds : List Char}

theorem follow_append (place : Place) (cs ds : List Char) :
    place.follow escapes (cs ++ ds) = (place.follow escapes cs).bind (follow escapes · ds) := by
  induction cs generalizing place with
  | nil => rfl
  | cons c cs ih =>
    rw [List.cons_append, follow, follow]
    split
    · rfl
    · exact ih _

/-- Characters that do not lead elsewhere. -/
theorem follow_of_stays
    (h : ∀ c ∈ cs, place.next escapes c = place ∧ (place = .code 0 → signOf? c = none)) :
    place.follow escapes cs = some place := by
  induction cs with
  | nil => rfl
  | cons c cs ih =>
    obtain ⟨⟨hnext, hsign⟩, hrest⟩ := List.forall_mem_cons.1 h
    rw [follow, if_neg fun hcounts => by simp [hsign hcounts.1] at hcounts, hnext, ih hrest]

end Place

/-- Characters without a sign that counts go on with an operand. -/
theorem Scan.foldl_of_follow {front : List (String × Sign)} {current cs : List Char}
    {place next : Place} (hcurrent : current ≠ []) (h : place.follow escapes cs = some next) :
    cs.foldl (step escapes) ⟨front, current, place⟩ = ⟨front, cs.reverse ++ current, next⟩ := by
  induction cs generalizing current place with
  | nil =>
    obtain rfl := Option.some.inj h
    rfl
  | cons c cs ih =>
    rw [Place.follow] at h
    split at h
    · cases h
    · next hcounts =>
      have hnone : (if place = .code 0 then signOf? c else none) = none := by
        split
        · next hplace => exact Option.not_isSome_iff_eq_none.1 fun hc => hcounts ⟨hplace, hc⟩
        · rfl
      have hstep : step escapes ⟨front, current, place⟩ c =
          ⟨front, c :: current, place.next escapes c⟩ := by
        simp only [step, hnone, hcurrent, and_false, if_false]
      rw [List.foldl_cons, hstep, ih (List.cons_ne_nil _ _) h, List.reverse_cons, List.append_assoc]
      rfl

/-- A text that is one operand. -/
structure IsOperand (escapes : Char → Bool) (text : String) : Prop where
  closed : Closed escapes text
  row : rowOf escapes text = ⟨[], text⟩

/-- A text without a sign that counts, and without spaces at its ends, is one operand. -/
theorem isOperand_of_follow (h : (Place.code 0).follow escapes text.toList = some (.code 0))
    (hfirst : text.toList.head? ≠ some ' ') (hlast : text.toList.getLast? ≠ some ' ') :
    IsOperand escapes text := by
  have hscan : scan escapes text = ⟨[], text.toList.reverse, .code 0⟩ := by
    rw [scan]
    rcases htext : text.toList with _ | ⟨c, cs⟩
    · rfl
    · rw [htext] at h hfirst
      have hc : c ≠ ' ' := fun hc => hfirst (by rw [hc]; rfl)
      rw [Place.follow] at h
      split at h
      · cases h
      · next hcounts =>
        have hnone : signOf? c = none := Option.not_isSome_iff_eq_none.1 fun hc => hcounts ⟨rfl, hc⟩
        have hstep : Scan.step escapes ⟨[], [], .code 0⟩ c =
            ⟨[], [c], (Place.code 0).next escapes c⟩ := by
          simp only [Scan.step, if_true, hnone, hc, false_and, if_false]
        rw [List.foldl_cons, hstep, Scan.foldl_of_follow (List.cons_ne_nil _ _) h, List.reverse_cons]
  refine ⟨by rw [Closed, hscan], ?_⟩
  have hdrop : text.toList.reverse.dropWhile (· == ' ') = text.toList.reverse := by
    rcases hreverse : text.toList.reverse with _ | ⟨c, cs⟩
    · rfl
    · refine List.dropWhile_cons_of_neg fun hc => hlast ?_
      rw [← List.head?_reverse, hreverse, eq_of_beq hc]
      rfl
  rw [rowOf, hscan, Scan.row, Scan.operand, hdrop, List.reverse_reverse, String.ofList_toList]

theorem IsOperand.grouped (h : IsOperand escapes text) : grouped escapes text = .operand text := by
  rw [Code.grouped, h.row]
  rfl

/-! Signs between codes. -/

/-- Behind a closed code, the characters come to a sign and nothing else. -/
def Separates (escapes : Char → Bool) (between : String) (sign : Sign) : Prop :=
  ∀ front current, between.toList.foldl (Scan.step escapes) ⟨front, current, .code 0⟩ =
    ⟨front ++ [((⟨front, current, .code 0⟩ : Scan).operand, sign)], [], .code 0⟩

theorem separates_member : Separates escapes "." .member := fun _ _ => rfl

theorem separates_math (op : MathOp) : Separates escapes (" " ++ mathSign op ++ " ") (.math op) := by
  intro front current
  obtain ⟨c, hop, hc⟩ : ∃ c, (mathSign op).toList = [c] ∧ signOf? c = some (.math op) := by
    cases op <;> exact ⟨_, rfl, rfl⟩
  have htext : (" " ++ mathSign op ++ " ").toList = [' ', c, ' '] := by
    rw [String.toList_append, String.toList_append, hop]
    rfl
  obtain ⟨later, hspace, hoperand⟩ := Scan.step_space escapes front current
  rw [htext, List.foldl_cons, hspace, List.foldl_cons, Scan.step_sign hc, hoperand]
  rfl

/-- The row of two codes with a sign between them. -/
theorem scan_separated (ha : Closed escapes a) (h : Separates escapes between sign) (b : String) :
    rowOf escapes (a ++ between ++ b) = (rowOf escapes a).join sign (rowOf escapes b) ∧
      (Closed escapes (a ++ between ++ b) ↔ Closed escapes b) := by
  have hscan : scan escapes (a ++ between ++ b) =
      ⟨(rowOf escapes a).front ++ ((rowOf escapes a).last, sign) :: (scan escapes b).front,
        (scan escapes b).current, (scan escapes b).place⟩ := by
    rw [scan, String.toList_append, String.toList_append, List.foldl_append, List.foldl_append]
    show b.toList.foldl _ (between.toList.foldl _ (scan escapes a)) = _
    rw [Closed] at ha
    rcases hread : scan escapes a with ⟨front, current, place⟩
    rw [hread] at ha
    obtain rfl : place = .code 0 := ha
    rw [h, Scan.foldl_front, rowOf, hread]
    simp only [Scan.row, List.append_assoc, List.singleton_append]
    rfl
  rw [rowOf, Closed, hscan]
  exact ⟨rfl, Iff.rfl⟩

end Prose.Code
