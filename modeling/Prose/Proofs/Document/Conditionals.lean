import Prose.Proofs.Document.Everywhere
import Prose.Proofs.Loose.Outcome
import Prose.Proofs.Tree.Conditionals

/- The cap on nesting bounds how many `if` statements stand above each other. The grammar
   counts down from the cap with every branch that it reads, also of a branch that is a
   header with its body. Bodies of headers of paragraphs start from the cap again, but no
   header stands below a statement that was read before it. -/
namespace Prose

open Grammar Node

variable {ts : List Token} {s : Stmt}

namespace Grammar

/-- A statement without a branch has no statement below it. -/
theorem PlainFrom.hasStatements_children {room : Nat} (h : PlainFrom room s ts) :
    ∀ c ∈ s.children, c.hasStatements = false := by
  intro c hc
  cases h with
  | invocation =>
    rcases List.mem_append.1 hc with hc | hc
    all_goals
      obtain ⟨r, -, rfl⟩ := List.mem_map.1 hc
      rfl
  | unit =>
    rcases List.mem_cons.1 hc with rfl | hc
    · rfl
    · rcases List.mem_cons.1 hc with rfl | hc
      · rfl
      · rw [List.mem_singleton.1 hc]
        rfl
  | constant | pointer =>
    rcases List.mem_cons.1 hc with rfl | hc
    · rfl
    · rw [List.mem_singleton.1 hc]
      rfl
  | declared | shape | shapeWith | shapeOf | action | result =>
    rw [List.mem_singleton.1 hc]
    rfl

theorem PlainFrom.shallow {room level : Nat} (h : PlainFrom room s ts) : (stmt s).Shallow level :=
  shallow_plain (by cases h <;> rfl) h.hasStatements_children

/-- The levels that a derivation has room for bound the `if` statements above each other. -/
theorem StmtFrom.shallow {room : Nat} (h : StmtFrom room s ts) : (stmt s).Shallow room := by
  induction h with
  | plain h => exact h.shallow
  | conditional _ _ _ _ _ ih => exact shallow_conditional ih
  | block _ _ _ _ hlength _ ih =>
    exact shallow_conditional (shallow_block (forall_mem_branches hlength fun b hb _ => ih b hb))
  | labeled _ _ ih => exact shallow_underHeader ih
  | noBody => exact shallow_underHeader (shallow_noBody _)
  | unread => exact shallow_ofUnread _
  | uncommented _ ih => exact ih

end Grammar

/-- A loose declaration is no `if` statement. -/
theorem LooseDeclaration.Declares.shallow {span : Span} {room : Nat} (h : Declares span s) :
    (stmt s).Shallow room := by
  cases h with
  | variableDeclaration | shapeDeclaration =>
    exact shallow_plain rfl (List.forall_mem_singleton.2 rfl)

/-- Every statement that is read is as shallow as the settings ask; of labels nothing is asked. -/
theorem pervades_shallow (r : Reading) :
    Pervades r (fun ts => ∀ t ∈ ts, t.isSignificant)
      (fun s => (stmt s).Shallow r.settings.maxDepth) fun _ => True where
  part hts hsub t ht := hts t (hsub.subset ht)
  significant h := h
  sentence _ h := by
    cases h with
    | stmt h => exact h.shallow
    | header | body => trivial
  loose _ h := (LooseDeclaration.declares_parse h).shallow
  anyUnread := shallow_ofUnread
  noBody {l} _ := shallow_noBody l
  underHeader _ hs := shallow_underHeader hs
  merge _ _ := trivial

/-- The cap bounds how many `if` statements stand above each other: no way down from the root
    of a document meets more of them, whatever lies between them. -/
theorem conditionals_le_maxDepth (settings : ReadingSettings) (text : String) (strict : Bool)
    (path : List Node) (hpath : Way (.document (Document.parse settings text strict)) path) :
    (Node.document (Document.parse settings text strict) :: path).countP isConditional ≤
      settings.maxDepth := by
  have hstatements := Document.all_parse (pervades_shallow (.ofText settings strict text))
    fun _ _ _ => Reading.significant_of_mem_tokens
  exact shallow_document (fun p hp => shallow_paragraph (hstatements p hp).statements) path hpath

set_option maxRecDepth 4096 in
/-- Two `if` statements above each other, with a block and a header between them: as many as
    the cap lets through. -/
theorem conditionals_le_maxDepth_header :
    let settings : ReadingSettings := { maxDepth := 2 }
    let text := "if a x is 1 then to go: if a y is 2 then exit; run."
    let inner : Stmt := .conditional (.comparison .equals (.reference (.plain "y" ⟨27, 30⟩) ⟨27, 30⟩)
      (.int 2 ⟨34, 35⟩) ⟨27, 35⟩) (.invocation "exit" [] none ⟨41, 45⟩) ⟨24, 45⟩
    let header : Stmt := .labeled ⟨["go"], [], none, ⟨17, 22⟩⟩ inner ⟨17, 45⟩
    let block : Stmt := .block [header, .invocation "run" [] none ⟨47, 50⟩] ⟨17, 50⟩
    let outer : Stmt := .conditional (.comparison .equals (.reference (.plain "x" ⟨3, 6⟩) ⟨3, 6⟩)
      (.int 1 ⟨10, 11⟩) ⟨3, 11⟩) block ⟨0, 50⟩
    let p : Paragraph := ⟨[outer], none, ⟨0, 51⟩⟩
    let root : Node := .document ⟨[p], ⟨0, 51⟩⟩
    let path : List Node := [.paragraph p, .stmt outer, .stmt block, .stmt header, .stmt inner]
    .document (Document.parse settings text) = root ∧ Way root path ∧
      (root :: path).countP isConditional = 2 ∧
      (root :: path).countP isConditional ≤ settings.maxDepth := by
  intro settings text inner header block outer p root path
  have hread : .document (Document.parse settings text) = root := by cbv
  have hpath : Way root path :=
    .down (.head _) (.down (.head _) (.down (.tail _ (.head _)) (.down (.head _)
      (.down (.tail _ (.head _)) .stop))))
  have hle := conditionals_le_maxDepth settings text false path
  rw [hread] at hle
  exact ⟨hread, hpath, rfl, hle hpath⟩

end Prose
