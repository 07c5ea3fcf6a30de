import Prose.Proofs.Pattern.Language
import Prose.Proofs.Text.Names
import Prose.Proofs.Tree.Preorder

/- Names in a tree. Every name that a node bears is a name as it should be, but for two
   slips. The unit that a plural unit word is made of has no letter left if the word is `s`.
   And the outline of a loose declaration finds a name where there are only blanks between the
   article and the verb, if they are so many that one is left for the name. Which of the names
   of a tree may be empty is said by the tree and the text it was read from. -/
namespace Prose

open Text

/-- An article and a verb with only blanks between them, three or more of them. -/
def Pattern.Nameless (article verb : Pattern) (text : List Char) : Prop :=
  ∃ before gap behind rest, text = before ++ (gap ++ (behind ++ rest)) ∧ article.Takes before ∧
    3 ≤ gap.length ∧ (∀ c ∈ gap, isBlank c = true) ∧ verb.Takes behind

theorem Pattern.Nameless.imp {article verb other : Pattern} {text : List Char}
    (h : article.Nameless verb text) (hverb : ∀ {w}, verb.Takes w → other.Takes w) :
    article.Nameless other text := by
  obtain ⟨before, gap, behind, rest, htext, hbefore, hlength, hgap, hbehind⟩ := h
  exact ⟨before, gap, behind, rest, htext, hbefore, hlength, hgap, hverb hbehind⟩

namespace Node

/-- The names that a node bears itself. Owners are nodes of their own. -/
def names : Node → List String
  | variableDeclaration n => [n.name]
  | shape n => [n.name]
  | slot n => n.name :: n.aliasFor.toList
  | reference n => [n.name]
  | typeName n => [n.name]
  | _ => []

/-- The nodes of a tree that may have an empty name: the base of a unit alias that is written
    `s`, and where the fallback is on a declaration with blanks in the place of its name. -/
inductive Unnamed (fallback : Bool) (text : List Char) (root : Node) : Node → Prop where
  | unit {name base : Reference} {value : Expr} {span : Span}
      (h : .stmt (.unitAlias name value base span) ∈ root.preorder)
      (htext : slice text base.span.start base.span.stop = ['s']) :
      Unnamed fallback text root (.reference base)
  | declaration {d : VariableDeclaration} (hfallback : fallback = true)
      (htext : (Pattern.word "the").Nameless (.alt (.word "is") (.word "are"))
        (slice text d.span.start d.span.stop)) :
      Unnamed fallback text root (.variableDeclaration d)
  | shape {s : Shape} (hfallback : fallback = true)
      (htext : Pattern.indefinite.Nameless (.alt (.word "is") (.word "has"))
        (slice text s.span.start s.span.stop)) :
      Unnamed fallback text root (.shape s)

/-- The names in a part of a tree are as they should be, or empty where they may be. -/
def NamedIn (fallback : Bool) (text : List Char) (root part : Node) : Prop :=
  ∀ n ∈ part.preorder, ∀ name ∈ n.names, IsName name ∨ name = "" ∧ root.Unnamed fallback text n

/-- A tree whose names are as they should be, or empty where they may be. -/
def Named (fallback : Bool) (text : List Char) (root : Node) : Prop := root.NamedIn fallback text root

variable {fallback : Bool} {text : List Char} {root part n c : Node}

/-- What may have no name in a part of a tree may have none in the tree. -/
theorem Unnamed.mono (h : part.Unnamed fallback text n) (hsub : part.preorder ⊆ root.preorder) :
    root.Unnamed fallback text n := by
  cases h with
  | unit h htext => exact .unit (hsub h) htext
  | declaration hfallback htext => exact .declaration hfallback htext
  | shape hfallback htext => exact .shape hfallback htext

theorem Named.namedIn (h : c.Named fallback text) (hc : c ∈ n.children) : n.NamedIn fallback text c :=
  fun m hm name hname => (h m hm name hname).imp_right fun h => ⟨h.1, h.2.mono (preorder_subset hc)⟩

/-- A part of a tree is named if the node at its root and the parts below it are. -/
theorem namedIn_of_children
    (hn : ∀ name ∈ part.names, IsName name ∨ name = "" ∧ root.Unnamed fallback text part)
    (hchildren : ∀ c ∈ part.children, root.NamedIn fallback text c) : root.NamedIn fallback text part := by
  intro m hm name hname
  rw [preorder_eq] at hm
  rcases List.mem_cons.1 hm with rfl | hm
  · exact hn name hname
  · obtain ⟨c, hc, hm⟩ := List.mem_flatMap.1 hm
    exact hchildren c hc m hm name hname

/-- A tree is named if the node at its root and the trees below it are. -/
theorem named_of_children (hn : ∀ name ∈ n.names, IsName name ∨ name = "" ∧ n.Unnamed fallback text n)
    (hchildren : ∀ c ∈ n.children, c.Named fallback text) : n.Named fallback text :=
  namedIn_of_children hn fun c hc => (hchildren c hc).namedIn hc

/-- The same for a node that bears no names. -/
theorem named_of_names_eq_nil (hnames : n.names = []) (hchildren : ∀ c ∈ n.children, c.Named fallback text) :
    n.Named fallback text := by
  apply named_of_children _ hchildren
  rw [hnames]
  exact nofun

/-- What has two named trees below it. -/
theorem named_pair {a b : Node} (hnames : n.names = []) (hchildren : n.children = [a, b])
    (ha : a.Named fallback text) (hb : b.Named fallback text) : n.Named fallback text := by
  apply named_of_names_eq_nil hnames
  rw [hchildren]
  exact List.forall_mem_cons.2 ⟨ha, List.forall_mem_singleton.2 hb⟩

/-- A node without children. -/
theorem named_leaf (hchildren : n.children = []) (hnames : ∀ name ∈ n.names, IsName name) :
    n.Named fallback text := by
  apply named_of_children fun name hname => .inl (hnames name hname)
  rw [hchildren]
  exact nofun

theorem named_reference {r : Reference} (h : ∀ name ∈ r.path, IsName name) :
    (reference r).Named fallback text := by
  obtain ⟨name, span, owners⟩ := r
  -- on the owners, the nearest of which is the root of what is below
  induction owners generalizing name span with
  | nil => exact named_leaf rfl h
  | cons o above ih =>
    have hpath : Reference.path ⟨name, span, o :: above⟩ =
        Reference.path ⟨o.name, o.span, above⟩ ++ [name] := by
      simp [Reference.path]
    rw [hpath, List.forall_mem_append] at h
    apply named_of_children
    · intro other hother
      exact .inl (h.2 other hother)
    · intro c hc
      rw [List.mem_singleton.1 hc]
      exact ih o.name o.span h.1

/-- A name that nothing owns. -/
theorem named_plain {name : String} {span : Span} (h : IsName name) :
    (reference (.plain name span)).Named fallback text :=
  named_reference (List.forall_mem_singleton.2 h)

/-- A shape as a statement. -/
theorem named_shape {name : String} {base : Option TypeName} {slots : Option (List Slot)} {span : Span}
    (hname : IsName name ∨ name = "" ∧ (shape ⟨name, base, slots, span⟩).Unnamed fallback text
      (shape ⟨name, base, slots, span⟩))
    (hbase : ∀ t ∈ base.toList, (typeName t).Named fallback text)
    (hslots : ∀ s ∈ slots.getD [], (slot s).Named fallback text) :
    (stmt (.shapeDeclaration ⟨name, base, slots, span⟩ span)).Named fallback text := by
  apply named_of_names_eq_nil rfl
  refine List.forall_mem_singleton.2 (named_of_children (List.forall_mem_singleton.2 hname) ?_)
  exact List.forall_mem_append.2 ⟨List.forall_mem_map.2 hbase, List.forall_mem_map.2 hslots⟩

end Node

end Prose
