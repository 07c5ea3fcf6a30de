/- Forms: the written shape of a value, before it is decided how it is written.
   A tree is turned into a form once; the two notations that print trees differ
   only in how they spell the parts of a form. -/
namespace Prose

/-- The shape of a value that is to be printed. -/
inductive Form where
  | number (value : Int)
  | flag (value : Bool)
  | text (value : String)
  /-- One of a fixed set of words. -/
  | word (value : String)
  /-- An optional part that is not there. -/
  | absent
  /-- An optional part that is there. -/
  | present (value : Form)
  | list (items : List Form)
  /-- Named fields under a name that tells nothing new. -/
  | record (name : String) (fields : List (String × Form))
  /-- Named fields under the name of one of several alternatives. -/
  | variant (name : String) (fields : List (String × Form))
  /-- One value under the name of one of several alternatives. -/
  | wrapped (name : String) (value : Form)

/-- An optional part. -/
def Form.optional : Option Form → Form
  | none => .absent
  | some f => .present f

/-- A list, part by part. -/
def Form.listOf {α : Type} (f : α → Form) (items : List α) : Form := .list (items.map f)

end Prose
