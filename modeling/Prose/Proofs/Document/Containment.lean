import Prose.Proofs.Document.Contribution
import Prose.Proofs.Document.Fragments

/- Containment. A paragraph is what its fragments contribute, said without the draft that
   it is built in: the headers without a body that it starts with make up its label,
   together with the next header if that one has a body; that body is the first
   statement, and each of the other fragments is one statement. A fragment that nothing
   can read is one invalid statement with just its own tokens. -/
namespace Prose

open Grammar

namespace Contribution

/-- The label of a header. -/
def label? : Contribution → Option Label
  | .stmt _ => none
  | .header label _ => some label

/-- Whether it is a header without a body. -/
def isBodyless : Contribution → Bool
  | .header _ none => true
  | _ => false

/-- Whether it is a header with a body. -/
def hasBody : Contribution → Bool
  | .header _ (some _) => true
  | _ => false

/-- The statement that stands for it where it does not belong to the label. -/
def statement : Contribution → Stmt
  | .stmt s => s
  | .header label body => .underHeader label (body.getD (.noBody label))

/-- The headers that make up the label of a paragraph: the ones without a body that it
    starts with, and the next contribution if that is a header with a body. -/
def heading (cs : List Contribution) : List Label :=
  (cs.takeWhile isBodyless ++ ((cs.dropWhile isBodyless).head?.filter hasBody).toList).filterMap label?

/-- The statements of a paragraph: the body of its label, if there is one, and what the
    other contributions stand for. -/
def statementsOf (cs : List Contribution) : List Stmt :=
  match cs.dropWhile isBodyless with
  | .header _ (some body) :: later => body :: later.map statement
  | later => later.map statement

variable {l : Label} {body : Stmt} {s : Stmt} {cs : List Contribution}

theorem heading_stmt : heading (.stmt s :: cs) = [] := rfl

theorem heading_bodyless : heading (.header l none :: cs) = l :: heading cs := rfl

theorem heading_body : heading (.header l (some body) :: cs) = [l] := rfl

theorem statementsOf_stmt : statementsOf (.stmt s :: cs) = s :: cs.map statement := rfl

theorem statementsOf_bodyless : statementsOf (.header l none :: cs) = statementsOf cs := rfl

theorem statementsOf_body :
    statementsOf (.header l (some body) :: cs) = body :: cs.map statement := rfl

/-- No contribution is lost: each is a header without a body, or has its statement. -/
theorem length_statementsOf (cs : List Contribution) :
    (statementsOf cs).length + (cs.takeWhile isBodyless).length = cs.length := by
  induction cs with
  | nil => rfl
  | cons c cs ih =>
    cases c with
    | stmt s => simp [statementsOf_stmt, isBodyless]
    | header l body =>
      cases body with
      | none => exact congrArg Nat.succ ih
      | some body => simp [statementsOf_body, isBodyless]

end Contribution

/-- One label of several headers. Markers add up; of parameters and results the first
    ones count, and the label covers all headers. -/
def Label.mergeAll : List Label → Option Label
  | [] => none
  | first :: later => some
    { markers := (first :: later).flatMap Label.markers
      parameters := (((first :: later).map Label.parameters).find? fun ps => !ps.isEmpty).getD []
      result := (first :: later).findSome? Label.result
      span := later.foldl (fun span l => span.cover l.span) first.span }

theorem Label.mergeAll_concat (labels : List Label) (l : Label) :
    mergeAll (labels ++ [l]) = some (((mergeAll labels).map fun first => first.merge l).getD l) := by
  cases labels with
  | nil =>
    obtain ⟨markers, parameters, result, span⟩ := l
    cases parameters <;> cases result <;> simp [mergeAll]
  | cons first later =>
    simp only [mergeAll, List.cons_append, Option.map_some, Option.getD_some, merge, Option.some.injEq,
      Label.mk.injEq]
    refine ⟨by simp, ?_, ?_, by simp⟩
    · rw [← List.cons_append, List.map_append, List.find?_append]
      cases h : ((first :: later).map Label.parameters).find? fun ps => !ps.isEmpty with
      | none => cases hl : l.parameters <;> simp [hl]
      | some ps =>
        have hps := List.find?_some h
        simp only [Option.some_or, Option.getD_some]
        rw [if_neg (by simpa using hps)]
    · rw [← List.cons_append, List.findSome?_append]
      cases hl : l.result <;> simp [hl]

namespace Draft

open Contribution

/-- Behind a statement, every contribution is one statement. -/
theorem foldl_add_of_statements {d : Draft} (hd : d.statements ≠ []) (cs : List Contribution)
    (span : Span) :
    (cs.foldl Draft.add d).finish span = ⟨d.statements ++ cs.map statement, d.label, span⟩ := by
  induction cs generalizing d with
  | nil => simp [finish]
  | cons c cs ih =>
    have hc : d.add c = d.addStatement c.statement := by
      cases c with
      | stmt s => rfl
      | header l body => simp [add, addHeader, takesHeader, statement, hd]
    rw [List.foldl_cons, hc, ih (by simp [addStatement])]
    simp [addStatement]

theorem takesHeader_of_headers (labels : List Label) :
    takesHeader ⟨Label.mergeAll labels, [], !labels.isEmpty⟩ = true := by
  cases labels <;> rfl

/-- A header belongs to the label as long as there are only headers without a body. -/
theorem add_header (labels : List Label) (l : Label) (body : Option Stmt) :
    add ⟨Label.mergeAll labels, [], !labels.isEmpty⟩ (.header l body) =
      ⟨Label.mergeAll (labels ++ [l]), body.toList, body.isNone⟩ := by
  simp only [add, addHeader, takesHeader_of_headers, if_true, Label.mergeAll_concat]
  cases Label.mergeAll labels <;> cases body <;> rfl

/-- The finished paragraph is said by its contributions alone, also where it starts with
    some headers that were taken before. -/
theorem foldl_add_of_headers (labels : List Label) (cs : List Contribution) (span : Span) :
    (cs.foldl Draft.add ⟨Label.mergeAll labels, [], !labels.isEmpty⟩).finish span =
      ⟨statementsOf cs, Label.mergeAll (labels ++ heading cs), span⟩ := by
  -- on the contributions; a header without a body joins the ones before
  induction cs generalizing labels with
  | nil => simp [finish, statementsOf, heading]
  | cons c cs ih =>
    rw [List.foldl_cons]
    cases c with
    | stmt s =>
      rw [foldl_add_of_statements (by simp [add, addStatement]), statementsOf_stmt, heading_stmt,
        List.append_nil]
      rfl
    | header l body =>
      rw [add_header]
      cases body with
      | none =>
        have hopen : (!(labels ++ [l]).isEmpty) = true := by simp
        have hlater := ih (labels ++ [l])
        rw [hopen, List.append_assoc, List.singleton_append] at hlater
        rw [statementsOf_bodyless, heading_bodyless]
        exact hlater
      | some body =>
        rw [foldl_add_of_statements (by simp), statementsOf_body, heading_body]
        rfl

/-- A paragraph from what its fragments contribute. -/
theorem finish_foldl_add (cs : List Contribution) (span : Span) :
    (cs.foldl Draft.add {}).finish span =
      ⟨statementsOf cs, Label.mergeAll (heading cs), span⟩ :=
  foldl_add_of_headers [] cs span

end Draft

namespace Reading

variable {r : Reading} {ts : List Token}

/-- A fragment that is no sentence for the grammar and no loose declaration either. -/
def Rejects (r : Reading) (ts : List Token) : Prop :=
  (∃ e, parseSentence r.settings ts = .error e) ∧
    (r.settings.fallback = true → ∃ e, LooseDeclaration.parse
      (Text.slice r.text (Span.ofTokens ts).start (Span.ofTokens ts).stop) (.ofTokens ts) = .error e)

/-- What nothing can read contributes just its own tokens. -/
theorem contributes_of_rejects (hr : r.strict = false) (hts : ∀ t ∈ ts, t.isSignificant)
    (h : r.Rejects ts) {c : Contribution} (hc : r.Contributes ts c) :
    c = .stmt (.invalid ts (.ofTokens ts)) := by
  obtain ⟨⟨e, he⟩, hloose⟩ := h
  have hrejected : r.rejected ts = .invalid ts (.ofTokens ts) := by
    have hunread : Stmt.ofUnread ts = .invalid ts (.ofTokens ts) := by
      simp only [Stmt.ofUnread, List.filter_eq_self.2 hts]
    rw [rejected]
    by_cases hfallback : r.settings.fallback = true
    · obtain ⟨reason, hreason⟩ := hloose hfallback
      simp [hfallback, hreason, Except.toOption, hunread]
    · simp [hfallback, hunread]
  have hsentence := sentence_of_rejected hr he
  rw [hrejected] at hsentence
  cases hc with
  | stmt h =>
    rw [hsentence] at h
    obtain rfl := Sentence.stmt.inj (Except.ok.inj h)
    rfl
  | header h =>
    rw [hsentence] at h
    cases Except.ok.inj h
  | body h =>
    rw [hsentence] at h
    cases Except.ok.inj h

theorem significant_of_mem_tokens {span : Span} {t : Token} (h : t ∈ r.tokens span) : t.isSignificant :=
  (List.mem_filter.1 h).2

theorem significant_of_mem_sentences {span : Span} (h : ts ∈ Layout.sentences (r.tokens span)) :
    ∀ t ∈ ts, t.isSignificant :=
  fun _ ht => significant_of_mem_tokens ((Layout.sublist_of_mem_sentences h).subset ht)

end Reading

end Prose
