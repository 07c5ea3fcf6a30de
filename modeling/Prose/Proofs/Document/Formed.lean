import Prose.Proofs.Document.Everywhere
import Prose.Proofs.Document.Nested
import Prose.Proofs.Grammar.Formed
import Prose.Proofs.Loose.Outcome

/- Trees that are read are formed, whatever the text and the settings. Only a text that is
   not read as a document may be an arithmetic phrase on its own. -/
namespace Prose

open Grammar

variable {settings : ReadingSettings} {text : String} {n : Node}

theorem LooseDeclaration.Declares.formed {span : Span} {s : Stmt} (h : Declares span s) :
    s.Formed := by
  cases h with
  | @variableDeclaration name type value hvalue =>
    refine .variableDeclaration fun e he => ?_
    have hliteral := hvalue e he
    cases e with
    | int => exact Expr.Literal.int.isValue
    | text => exact Expr.Literal.text.isValue
    | _ => exact hliteral.elim
  | shapeDeclaration => exact .shapeDeclaration

/-- Formed statements make up formed documents; of labels nothing is asked. -/
theorem pervades_formed (r : Reading) :
    Pervades r (fun ts => ∀ t ∈ ts, t.isSignificant) Stmt.Formed fun _ => True where
  part hts hsub t ht := hts t (hsub.subset ht)
  significant h := h
  sentence _ h := by
    cases h with
    | stmt h => exact h.formed
    | header | body => trivial
  loose _ h := (LooseDeclaration.declares_parse h).formed
  anyUnread := Stmt.formed_ofUnread
  noBody {l} _ := Stmt.formed_noBody l
  underHeader _ hs := hs.underHeader
  merge _ _ := trivial

namespace Document

theorem formed_parse (settings : ReadingSettings) (text : String) (strict : Bool) :
    (parse settings text strict).Formed := by
  intro p hp
  have htokens : ∀ span ∈ Layout.paragraphSpans text.toList,
      ∀ t ∈ (Reading.ofText settings strict text).tokens span, t.isSignificant :=
    fun _ _ _ => Reading.significant_of_mem_tokens
  exact (all_parse (pervades_formed _) htokens p hp).statements

end Document

theorem root_parseNode {ts : List Token} (h : parseNode settings ts = .ok n) : n.Root := by
  rcases derives_parseNode h with hbare | ⟨s, rfl, hs⟩
  · exact hbare.root
  · exact .stmt hs.formed

theorem root_parseText (h : parseText settings text = .ok n) : n.Root := by
  rcases parseText_eq_ok h with rfl | rfl | hnode
  · exact .document (Document.formed_parse settings text false)
  · exact .document (List.forall_mem_nil _)
  · exact root_parseNode hnode

theorem ReadAs.root (h : ReadAs settings text n) : n.Root := by
  cases h with
  | document strict => exact .document (Document.formed_parse settings text strict)
  | text h => exact root_parseText h

end Prose
