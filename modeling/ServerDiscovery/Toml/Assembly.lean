import ServerDiscovery.Toml.Value

/-! # How statements make tables

A document is a list of statements: headers, which open a table or add one to a row of tables, and
pairs, which name a value in the table that was opened last.  Names may be dotted, and then tables
come about on the way.  `TableKind` keeps how a table came about, because that decides what may
still be added to it:

* a table that a header opened is not opened again, and dotted names in pairs do not reach into it
  from outside;
* a table that exists only because the header of a deeper one names it can still be opened, and then
  goes behind the tables that are already there;
* a table made by dotted names in pairs takes further pairs with dotted names.

A value, also one that is a table in braces, is complete as it stands.
-/

namespace ServerDiscovery.Toml

/-- How a table came about. -/
inductive TableKind where
  /-- A header opened it. -/
  | opened
  /-- The header of a deeper table names it. -/
  | implied
  /-- The dotted name of a value names it. -/
  | dotted
deriving DecidableEq, Repr

/-- What a name stands for in a document that is still being read. -/
inductive Entry where
  | value (value : Value)
  | table (kind : TableKind) (entries : List (String × Entry))
  | row (tables : List (List (String × Entry)))

/-- The named entries of a table that is still being read. -/
abbrev Entries := List (String × Entry)

/-- A dotted name and its value. -/
structure Pair where
  /-- The names of the tables on the way. -/
  path : List String
  name : String
  value : Value

/-- The tables that a header opens, and the pairs behind it. -/
structure Section where
  /-- Whether the header adds a table to a row. -/
  inRow : Bool
  path : List String
  name : String
  pairs : List Pair

namespace Entries

/-- The entries with `entry` in the place of the one called `name`. -/
def replace (es : Entries) (name : String) (entry : Entry) : Entries :=
  es.map fun e => if e.1 = name then (name, entry) else e

/-- Put a value into the table at the end of a path of dotted names. -/
def putPair (name : String) (value : Value) : (path : List String) → Entries → Option Entries
  | [], es => if (es.lookup name).isSome then none else some (es ++ [(name, .value value)])
  | key :: path, es =>
    match es.lookup key with
    | none => do
      let inner ← putPair name value path []
      return es ++ [(key, .table .dotted inner)]
    | some (.table kind inner) =>
      if kind = .opened || (path.isEmpty && kind = .implied) then none
      else do
        let inner ← putPair name value path inner
        return replace es key (.table kind inner)
    | some (.row tables) =>
      match tables.getLast? with
      | some last =>
        if path.isEmpty then none
        else do
          let last ← putPair name value path last
          return replace es key (.row (tables.dropLast ++ [last]))
      | none => none
    | some (.value _) => none

/-- Put pairs into a table, in order. -/
def putPairs (pairs : List Pair) (es : Entries) : Option Entries :=
  pairs.foldlM (fun es p => putPair p.name p.value p.path es) es

/-- The table that a header opens, with its pairs, among the entries of the table around it. -/
def openTable (name : String) (pairs : List Pair) (es : Entries) : Option Entries := do
  match es.lookup name with
  | none =>
    let inner ← putPairs pairs []
    return es ++ [(name, .table .opened inner)]
  | some (.table .implied inner) =>
    let inner ← putPairs pairs inner
    return es.filter (·.1 ≠ name) ++ [(name, .table .opened inner)]
  | some _ => none

/-- The table that a header adds to a row, with its pairs. -/
def extendRow (name : String) (pairs : List Pair) (es : Entries) : Option Entries := do
  match es.lookup name with
  | none =>
    let table ← putPairs pairs []
    return es ++ [(name, .row [table])]
  | some (.row tables) =>
    let table ← putPairs pairs []
    return replace es name (.row (tables ++ [table]))
  | some _ => none

/-- Change the table at the end of the path of a header.  A row of tables stands for its last
one. -/
def descend (change : Entries → Option Entries) : (path : List String) → Entries → Option Entries
  | [], es => change es
  | key :: path, es =>
    match es.lookup key with
    | none => do
      let inner ← descend change path []
      return es ++ [(key, .table .implied inner)]
    | some (.table kind inner) => do
      let inner ← descend change path inner
      return replace es key (.table kind inner)
    | some (.row tables) =>
      match tables.getLast? with
      | some last => do
        let last ← descend change path last
        return replace es key (.row (tables.dropLast ++ [last]))
      | none => none
    | some (.value _) => none

/-- Put the table of a section where its header says. -/
def putSection (es : Entries) (s : Section) : Option Entries :=
  descend (if s.inRow then extendRow s.name s.pairs else openTable s.name s.pairs) s.path es

end Entries

mutual

/-- The value that an entry is once the document is read. -/
def Entry.toValue : Entry → Value
  | .value v => v
  | .table _ entries => .table (entriesToTable entries)
  | .row tables => .array (rowToValues tables)

/-- The table that entries are once the document is read. -/
def entriesToTable : List (String × Entry) → List (String × Value)
  | [] => []
  | (name, entry) :: rest => (name, entry.toValue) :: entriesToTable rest

/-- The tables of a row once the document is read. -/
def rowToValues : List (List (String × Entry)) → List Value
  | [] => []
  | table :: rest => .table (entriesToTable table) :: rowToValues rest

end

/-- The table that pairs make by themselves. -/
def assemblePairs? (pairs : List Pair) : Option Table :=
  (Entries.putPairs pairs []).map entriesToTable

/-- The table that a document is: the pairs in front of the first header, and the sections. -/
def assemble? (pairs : List Pair) (sections : List Section) : Option Table := do
  let root ← Entries.putPairs pairs []
  let root ← sections.foldlM Entries.putSection root
  return entriesToTable root

end ServerDiscovery.Toml
