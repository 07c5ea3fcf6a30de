import Prose.Proofs.Code.Answers
import Prose.Proofs.Document.Formed

/- Conversion of what is read. In C# there is something to say for all of it. In JavaScript
   there is nothing to say for what could not be read, and the first such node is what a
   failed conversion reports. -/
namespace Prose

/-- Whether a node stands for something that could not be read. -/
def Node.isUnread : Node → Bool
  | stmt (.invalid ..) | expr (.invalid ..) => true
  | _ => false

/-! Comparisons that are read. -/

theorem Node.Formed.readable {op : Comparison} {first second : Expr} {span : Span}
    (h : (Node.expr (.comparison op first second span)).Formed) : op ≠ .invalid := by
  rcases h with h | h | h
  · cases h with
    | operand h => cases h with | literal h => cases h
    | test h => cases h with | comparison hop => exact hop
  · cases h
  · cases h with | test h => cases h with | comparison hop => exact hop

theorem Node.Root.readable {n : Node} (h : n.Root) {op : Comparison} {first second : Expr}
    {span : Span} (hm : .expr (.comparison op first second span) ∈ n.preorder) : op ≠ .invalid := by
  rw [preorder_eq] at hm
  rcases List.mem_cons.1 hm with rfl | hm
  · cases h with
    | value h => exact Formed.readable (.inl h)
    | action h => cases h
  · obtain ⟨c, hc, hm⟩ := List.mem_flatMap.1 hm
    exact ((h.formed_of_mem_children hc).of_mem_preorder hm).readable

namespace Dialect

variable {d : Dialect} {n : Node}

theorem isSome_comparisonSign {op : Comparison} (h : op ≠ .invalid) :
    (Code.comparisonSign op).isNone = false := by
  cases op with
  | invalid => exact absurd rfl h
  | equals | notEquals | less | lessOrEquals | greater | greaterOrEquals => rfl

/-- A dialect that says something for all that could not be read has something to say for
    everything that is read. -/
theorem silence_eq_nil (hstatement : d.unreadStatement.isSome) (hcondition : d.unreadCondition.isSome)
    (h : n.Root) : d.silence n = [] := by
  refine List.filter_eq_nil_iff.2 fun m hm => ?_
  unfold silentAt
  split
  · simpa [Option.isNone_iff_eq_none, Option.isSome_iff_ne_none] using hstatement
  · simpa [Option.isNone_iff_eq_none, Option.isSome_iff_ne_none] using hcondition
  · simp [isSome_comparisonSign (h.readable hm)]
  · exact Bool.false_ne_true

/-- A dialect that says nothing for what could not be read is silent at just these nodes. -/
theorem silence_eq_unread (hstatement : d.unreadStatement = none) (hcondition : d.unreadCondition = none)
    (h : n.Root) : d.silence n = n.preorder.filter Node.isUnread := by
  refine List.filter_congr fun m hm => ?_
  unfold silentAt
  split
  · rw [hstatement]
    rfl
  · rw [hcondition]
    rfl
  · rw [isSome_comparisonSign (h.readable hm)]
    rfl
  · next hstmt hexpr _ =>
    unfold Node.isUnread
    split
    · exact absurd rfl (hstmt _ _)
    · exact absurd rfl (hexpr _ _)
    · rfl

end Dialect

theorem writesConstants_csharp : Code.CSharp.dialect.WritesConstants := by
  intro e he
  cases he <;> rfl

theorem writesConstants_javascript : Code.JavaScript.dialect.WritesConstants := fun _ _ => rfl

variable {settings : ReadingSettings} {text : String} {n : Node}

/-- Whatever a text is read as, under any settings, can be converted to C#. It can be converted
    to JavaScript if all of it could be read. Otherwise the conversion reports the first node
    that could not be read, in the order in which the tree is written: a node before what is
    below it, and that in the order of the text. -/
theorem convert_read (h : ReadAs settings text n) :
    (∃ code, n.convert .csharp = .ok code) ∧
      match n.preorder.find? Node.isUnread with
      | none => ∃ code, n.convert .javascript = .ok code
      | some unread => n.convert .javascript = .error ⟨unread.kindName, .javascript⟩ := by
  constructor
  · have hanswers := Dialect.answers_root writesConstants_csharp h.root
    rwa [Dialect.silence_eq_nil rfl rfl h.root] at hanswers
  · have hanswers := Dialect.answers_root writesConstants_javascript h.root
    rw [Dialect.silence_eq_unread rfl rfl h.root] at hanswers
    rw [← List.head?_filter]
    cases hunread : n.preorder.filter Node.isUnread <;> rw [hunread] at hanswers
    · exact hanswers
    · exact hanswers

set_option maxRecDepth 4096 in
/-- Neither the condition nor what depends on it can be read; the condition comes first. -/
theorem convert_read_condition :
    let root : Node := .document (Document.parse {} "if 5 then is.")
    ReadAs {} "if 5 then is." root ∧ (∃ code, root.convert .csharp = .ok code) ∧
      root.convert .javascript = .error ⟨"invalid expression", .javascript⟩ := by
  intro root
  have hread : ReadAs {} "if 5 then is." root := .document false
  have hfirst : root.preorder.find? Node.isUnread = some (.expr (.invalid "5" ⟨3, 4⟩)) := by cbv
  obtain ⟨hcsharp, hjavascript⟩ := convert_read hread
  rw [hfirst] at hjavascript
  exact ⟨hread, hcsharp, hjavascript⟩

end Prose
