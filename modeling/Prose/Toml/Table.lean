/- TOML tables in the making. A table remembers how it came to be, because that
   decides what may still be added to it: a table that a header named is closed to
   dotted keys, one that dotted keys made is closed to headers, and an inline table
   is closed to everything. -/
namespace Prose.Toml

/-- How a table came to be. -/
inductive Origin where
  /-- A header named it. -/
  | header
  /-- A header named something below it. -/
  | implied
  /-- A dotted key went through it. -/
  | dotted
  /-- It is a value. -/
  | inline
  deriving DecidableEq

/-- A value or a table. Floats and dates have no use here, so only their kind is kept. -/
inductive Value where
  | string (s : List Char)
  | integer (n : Int)
  | float
  | boolean (b : Bool)
  | date
  | array (items : List Value)
  /-- The tables of headers in double brackets. -/
  | tables (items : List Value)
  | table (origin : Origin) (entries : List (List Char × Value))

/-- Keys and values in the order in which they were first named. -/
abbrev Entries := List (List Char × Value)

/-- A key is a list of names. -/
abbrev Path := List (List Char)

namespace Entries

/-- The entries with a new value for a key. -/
def replace (es : Entries) (key : List Char) (v : Value) : Entries :=
  es.map fun e => if e.1 = key then (key, v) else e

/-- The entries without a key. -/
def erase (es : Entries) (key : List Char) : Entries := es.filter fun e => e.1 ≠ key

/-- Changes the table that `path` leads to. Tables on the way that are missing are
    made: by dotted keys or by headers. From a list of tables the last one is taken. -/
def update (byDots : Bool) (change : Origin → Entries → Option Entries) :
    Path → Origin → Entries → Option Entries
  | [], origin, es => change origin es
  | key :: path, _, es =>
    match es.lookup key with
    | none => do
      let origin := if byDots then Origin.dotted else Origin.implied
      let inner ← update byDots change path origin []
      return es ++ [(key, .table origin inner)]
    | some (.table origin inner) =>
      if origin = .inline ∨ (byDots ∧ origin = .header) then none
      else do
        let inner ← update byDots change path origin inner
        return es.replace key (.table origin inner)
    | some (.tables items) =>
      -- whatever is added belongs to the table that was opened last
      match items.getLast? with
      | some (.table origin inner) => do
        let inner ← update byDots change path origin inner
        return es.replace key (.tables (items.dropLast ++ [.table origin inner]))
      | _ => none
    | some _ => none

/-- Adds a value under a dotted key. Only dotted keys themselves may have made the
    tables on the way. -/
def addValue (key : Path) (v : Value) (origin : Origin) (es : Entries) : Option Entries :=
  match key.getLast? with
  | none => none
  | some name =>
    update true (fun origin es =>
      -- a dotted key must end in a table of dotted keys, and a simple one must not
      if (origin == .dotted) == key.dropLast.isEmpty then none
      else if (es.lookup name).isSome then none
      else some (es ++ [(name, v)])) key.dropLast origin es

/-- Opens the table of a header. A table may be named only once, and it takes its
    place in the order when it is named. -/
def openTable (key : Path) (es : Entries) : Option Entries :=
  match key.getLast? with
  | none => none
  | some name =>
    update false (fun _ es =>
      match es.lookup name with
      | none => some (es ++ [(name, .table .header [])])
      | some (.table .implied inner) => some (es.erase name ++ [(name, .table .header inner)])
      | some _ => none) key.dropLast .header es

/-- Opens one more table of a header in double brackets. -/
def openListed (key : Path) (es : Entries) : Option Entries :=
  match key.getLast? with
  | none => none
  | some name =>
    update false (fun _ es =>
      match es.lookup name with
      | none => some (es ++ [(name, .tables [.table .header []])])
      | some (.tables items) =>
        some (es.replace name (.tables (items ++ [.table .header []])))
      | some _ => none) key.dropLast .header es

end Entries

/-- What one line of a document says. -/
inductive Line where
  | entry (key : Path) (value : Value)
  | header (key : Path)
  | listHeader (key : Path)

/-- A document so far: its entries, and the header under which further ones stand. -/
structure Sheet where
  entries : Entries := []
  current : Path := []

/-- A document with one more line. -/
def Sheet.add (s : Sheet) : Line → Option Sheet
  | .entry key v => do
    let entries ← s.entries.update false (Entries.addValue key v) s.current .header
    return { s with entries := entries }
  | .header key => do return ⟨← s.entries.openTable key, key⟩
  | .listHeader key => do return ⟨← s.entries.openListed key, key⟩

/-- The value of an inline table with some entries. -/
def inlineTable (fields : List (Path × Value)) : Option Value := do
  let entries ← fields.foldlM (fun es (key, v) => Entries.addValue key v .inline es) []
  return .table .inline entries

end Prose.Toml
