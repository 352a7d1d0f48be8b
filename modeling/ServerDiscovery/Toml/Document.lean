import ServerDiscovery.Toml.Assembly
import ServerDiscovery.Toml.Lexeme

/-! # Reading documents

From text to statements to a table.  A value that is an array or a table in braces holds further
values, to a depth of `maxDepth`; the reader of values recurses on the depth that is left and hands
itself to the readers of rows.  A row may be long, so those count down on a number that no row can
reach, the length of the text.

An array may be broken over lines, and may end with a comma; a table in braces stands on one line,
and may not.
-/

namespace ServerDiscovery.Toml

/-! ## 1. Values -/

/-- The items of an array, and its closing bracket. -/
def items? (item : Reader α) : (room : Nat) → Reader (List α)
  | 0, _ => none
  | room + 1, cs => do
    match ← skipFiller? false cs with
    | ']' :: cs => return ([], cs)
    | cs =>
      let (first, cs) ← item cs
      match ← skipFiller? false cs with
      | ']' :: cs => return ([first], cs)
      | ',' :: cs =>
        let (rest, cs) ← items? item room cs
        return (first :: rest, cs)
      | _ => none

/-- A name, an equals sign and a value. -/
def pair? (value : Reader Value) (cs : List Char) : Option (Pair × List Char) := do
  let (keys, cs) ← keyPath? maxDepth cs
  let name ← keys.getLast?
  let (value, cs) ← value (skipSpace (← skip? '=' cs))
  return ({ path := keys.dropLast, name, value }, cs)

/-- The pairs of a table in braces, and its closing brace. -/
def members? (member : Reader Pair) : (room : Nat) → Reader (List Pair)
  | 0, _ => none
  | room + 1, cs => do
    let (first, cs) ← member cs
    match skipSpace cs with
    | '\x7d' :: cs => return ([first], cs)
    | ',' :: cs =>
      let (rest, cs) ← members? member room cs
      return (first :: rest, cs)
    | _ => none

/-- What is left behind `word`. -/
def word? (word : String) (cs : List Char) : Option (List Char) :=
  if cs.take word.length = word.toList then some (cs.drop word.length) else none

/-- A value that holds no others. -/
def scalar? : Reader Value
  | [] => none
  | c :: cs =>
    if c = '\x22' || c = '\x27' then (string? (c :: cs)).map fun (s, rest) => (.string s, rest)
    else if c = '+' || c = '-' || Numeral.isDecimal c then dateOrNumber? (c :: cs)
    else if c = 't' then (word? "true" (c :: cs)).map (.boolean true, ·)
    else if c = 'f' then (word? "false" (c :: cs)).map (.boolean false, ·)
    else if c = 'i' || c = 'n' then decimal? (c :: cs)
    else none

/-- A value that holds others to the given depth. -/
def value? : (depth : Nat) → Reader Value
  | 0, cs => scalar? cs
  | depth + 1, cs =>
    match cs with
    | '[' :: rest => (items? (value? depth) (rest.length + 1) rest).map fun (items, rest) =>
        (.array items, rest)
    | '\x7b' :: rest =>
      match skipSpace rest with
      | '\x7d' :: rest => some (.table [], rest)
      | _ => do
        let (pairs, rest) ← members? (pair? (value? depth)) (rest.length + 1) rest
        return (.table (← assemblePairs? pairs), rest)
    | cs => scalar? cs

/-! ## 2. Statements -/

/-- A line that says something. -/
inductive Statement where
  | header (inRow : Bool) (path : List String) (name : String)
  | pair (pair : Pair)

/-- The names in a header, and what is left behind its closing. -/
def header? (inRow : Bool) (cs : List Char) : Option (Statement × List Char) := do
  let (keys, cs) ← keyPath? maxDepth cs
  let name ← keys.getLast?
  let cs ← skip? ']' cs
  let cs ← if inRow then skip? ']' cs else some cs
  return (.header inRow keys.dropLast name, cs)

/-- The statement at the front, up to the end of its line. -/
def statement? : List Char → Option (Statement × List Char)
  | '[' :: '[' :: cs => do
    let (statement, cs) ← header? true cs
    return (statement, ← lineTail? cs)
  | '[' :: cs => do
    let (statement, cs) ← header? false cs
    return (statement, ← lineTail? cs)
  | cs => do
    let (pair, cs) ← pair? (value? maxDepth) cs
    return (.pair pair, ← lineTail? cs)

/-- The statements of a text of fewer than `room` characters. -/
def statements? : (room : Nat) → List Char → Option (List Statement)
  | 0, _ => none
  | room + 1, cs =>
    match skipSpace cs with
    | [] => some []
    | c :: cs =>
      if c = '#' || c = '\n' || c = '\r' then do
        statements? room (← lineTail? (c :: cs))
      else do
        let (statement, cs) ← statement? (c :: cs)
        let rest ← statements? room cs
        return statement :: rest

/-- Statements as the pairs in front of the first header and the sections behind it. -/
def sections : List Statement → List Pair × List Section
  | [] => ([], [])
  | .pair p :: rest => let (pairs, others) := sections rest; (p :: pairs, others)
  | .header inRow path name :: rest =>
    let (pairs, others) := sections rest
    ([], { inRow, path, name, pairs } :: others)

/-! ## 3. Documents -/

/-- The characters behind a byte order mark that may stand at the front. -/
def skipMark (cs : List Char) : List Char := if cs.head? = some '\uFEFF' then cs.tail else cs

/-- The table that `text` holds; `none` if it is no document. -/
def parse? (text : String) : Option Table := do
  let cs := skipMark text.toList
  let (pairs, others) := sections (← statements? (cs.length + 1) cs)
  assemble? pairs others

end ServerDiscovery.Toml
