import ServerDiscovery.Decimal.Shortest
import ServerDiscovery.Toml.Value

/-! # Writing documents

A document of sections: a header for each table, a line for each entry, and an empty line between
sections.  An array of at least two items takes a line for each item.

A string is written in the plainest of five forms that can hold it (`StringForm.of`): on one line in
quotation marks or in apostrophes, or between threefold delimiters, and escaped only if it has to
be.  Control characters other than the tab and the line feed rule out every form without escapes.
-/

namespace ServerDiscovery.Toml

/-! ## 1. Strings -/

/-- How a string is delimited. -/
inductive StringForm where
  | quoted
  | literal
  | quotedLines
  | literalLines
deriving DecidableEq, Repr

/-- A control character that only an escape can stand for. -/
def isControl (c : Char) : Bool := (c.toNat < 0x20 && c ≠ '\t' && c ≠ '\n') || c.toNat = 0x7F

/-- The length of the longest row of `c`, where `row` of them stand in front. -/
def longestRow (c : Char) (row : Nat) : List Char → Nat
  | [] => row
  | d :: cs => if d = c then longestRow c (row + 1) cs else max row (longestRow c 0 cs)

/-- The form in which a string is written: the first that can hold it without escapes, or else an
escaped one, on several lines if the string has a line break. -/
def StringForm.of (cs : List Char) : StringForm :=
  let control := cs.any isControl
  if !control && !cs.contains '\x5c' && !cs.contains '\x22' && !cs.contains '\n' then .quoted
  else if !control && !cs.contains '\x27' && !cs.contains '\n' then .literal
  else if !control && !cs.contains '\x5c' && longestRow '\x22' 0 cs ≤ 2 then .quotedLines
  else if !control && longestRow '\x27' 0 cs ≤ 2 then .literalLines
  else if cs.contains '\n' then .quotedLines
  else .quoted

/-- A character other than a quotation mark in a string in quotation marks. -/
def escaped (lines : Bool) (c : Char) : List Char :=
  if c = '\t' then ['\x5c', 't']
  else if c = '\x08' then ['\x5c', 'b']
  else if c = '\x0c' then ['\x5c', 'f']
  else if c = '\r' then ['\x5c', 'r']
  else if c = '\x5c' then ['\x5c', '\x5c']
  else if c = '\n' then if lines then ['\n'] else ['\x5c', 'n']
  else if isControl c then
    '\x5c' :: 'u' :: ((Numeral.padded 4 (Numeral.hexadecimal c.toNat)).toList.map Char.toUpper)
  else [c]

/-- The characters of a string in quotation marks.  On several lines only every third of a row of
quotation marks is escaped; `row` of them stand in front. -/
def escapedAll (lines : Bool) (row : Nat) : List Char → List Char
  | [] => []
  | c :: cs =>
    if c = '\x22' then
      if lines && row < 2 then '\x22' :: escapedAll lines (row + 1) cs
      else '\x5c' :: '\x22' :: escapedAll lines 0 cs
    else escaped lines c ++ escapedAll lines 0 cs

/-- What stands at both ends of a string. -/
def StringForm.delimiter : StringForm → List Char
  | .quoted => ['\x22']
  | .literal => ['\x27']
  | .quotedLines => ['\x22', '\x22', '\x22']
  | .literalLines => ['\x27', '\x27', '\x27']

/-- A string in the given form.  A string with a line break begins on a line of its own. -/
def StringForm.render (form : StringForm) (cs : List Char) : List Char :=
  let body := match form with
    | .quoted => escapedAll false 0 cs
    | .quotedLines => escapedAll true 0 cs
    | .literal => cs
    | .literalLines => cs
  let lineBreak := match form with
    | .quotedLines => cs.contains '\n'
    | .literalLines => cs.contains '\n'
    | _ => false
  form.delimiter ++ (if lineBreak then ['\n'] else []) ++ body ++ form.delimiter

/-- The text of a string. -/
def renderString (text : String) : String :=
  String.ofList ((StringForm.of text.toList).render text.toList)

/-! ## 2. Values -/

/-- Numbers keep a digit behind the point, and what is no number has a name. -/
def floatText : FloatText := { wholeSuffix := ".0", nan := "nan", infinity := "inf" }

/-- Whether a name needs no quotes. -/
def isBareName (name : String) : Bool :=
  !name.isEmpty && name.toList.all fun c => c.isAlphanum || c = '-' || c = '_'

/-- The text of a name. -/
def renderName (name : String) : String := if isBareName name then name else renderString name

/-- An array of texts. -/
def renderArray : List String → String
  | [] => "[]"
  | [item] => "[" ++ item ++ "]"
  | items => "[\n" ++ String.join (items.map fun item => "    " ++ item ++ ",\n") ++ "]"

mutual

/-- The text of a value. -/
def Value.render : Value → String
  | .string text => renderString text
  | .integer number => toString number
  | .float number => floatText.render number
  | .boolean truth => if truth then "true" else "false"
  | .datetime text => text
  | .array items => renderArray (renderAll items)
  | .table [] => "\x7b\x7d"
  | .table (entry :: rest) =>
    "\x7b " ++ String.intercalate ", " (renderEntries (entry :: rest)) ++ " \x7d"

/-- The texts of values. -/
def renderAll : List Value → List String
  | [] => []
  | v :: vs => v.render :: renderAll vs

/-- The lines of entries. -/
def renderEntries : List (String × Value) → List String
  | [] => []
  | (name, value) :: rest => (renderName name ++ " = " ++ value.render) :: renderEntries rest

end

/-! ## 3. Documents -/

/-- A section: the header of a table and its entries, a line each. -/
def renderSection (name : String) (entries : Table) : String :=
  "[" ++ renderName name ++ "]\n" ++ String.join ((renderEntries entries).map (· ++ "\n"))

/-- A document of sections. -/
def render (sections : List (String × Table)) : String :=
  String.intercalate "\n" (sections.map fun (name, entries) => renderSection name entries)

end ServerDiscovery.Toml
