import ServerDiscovery.Decimal.Numeral
import ServerDiscovery.Json.Value

/-! # Reading JSON

A reader takes characters from the front and gives what it read and what is left, or `none` where
the text is malformed.  Values nest, so the reader of values counts down on the depth that is left,
and the readers of rows on the items; both begin at the length of the text, which neither can use
up.
-/

namespace ServerDiscovery.Json

/-- Takes something from the front of a text. -/
abbrev Reader (α : Type) := List Char → Option (α × List Char)

/-- Space between the parts of a value. -/
def isSpace (c : Char) : Bool := c = ' ' || c = '\n' || c = '\t' || c = '\r'

/-- What is left behind space. -/
def skipSpace (cs : List Char) : List Char := cs.dropWhile isSpace

/-! ## 1. Strings -/

/-- The characters that escapes of one letter stand for. -/
def shortEscapes : List (Char × Char) :=
  [('\x22', '\x22'), ('\x5c', '\x5c'), ('/', '/'), ('b', '\x08'), ('f', '\x0c'), ('n', '\n'),
    ('r', '\r'), ('t', '\t')]

/-- A part of a string: a character, or a number that is meant as half of a surrogate pair. -/
inductive Unit where
  | char (c : Char)
  | half (n : Nat)
deriving DecidableEq, Repr

/-- The unit of a number of four hexadecimal digits. -/
def Unit.ofNumber (n : Nat) : Unit :=
  if 0xD800 ≤ n ∧ n ≤ 0xDFFF then .half n else .char (Char.ofNat n)

/-- The units of a string, up to its closing quotation mark.  `pending` holds what was read of an
escape that is not yet complete, last first; it is empty outside of escapes. -/
def units? (pending : List Char) : Reader (List Unit)
  | [] => none
  | c :: cs =>
    match pending with
    | [] =>
      if c = '\x22' then some ([], cs)
      else if c = '\x5c' then units? ['\x5c'] cs
      else if c.toNat < 0x20 then none
      else (units? [] cs).map fun (us, rest) => (.char c :: us, rest)
    | ['\x5c'] =>
      if c = 'u' then units? ['u', '\x5c'] cs
      else match shortEscapes.lookup c with
        | some d => (units? [] cs).map fun (us, rest) => (.char d :: us, rest)
        | none => none
    | digits =>
      if !Numeral.isHex c then none
      else if digits.length < 5 then units? (c :: digits) cs
      else
        let number := Numeral.value 16 ((c :: digits).take 4).reverse
        (units? [] cs).map fun (us, rest) => (Unit.ofNumber number :: us, rest)

/-- The characters of units: a pair of surrogates is one character, and a half without the other is
none. -/
def characters? : List Unit → Option (List Char)
  | [] => some []
  | .char c :: us => (characters? us).map (c :: ·)
  | .half high :: .half low :: us =>
    if high < 0xDC00 ∧ 0xDC00 ≤ low then
      (characters? us).map
        (Char.ofNat (0x10000 + (high - 0xD800) * 0x400 + (low - 0xDC00)) :: ·)
    else none
  | .half _ :: _ => none

/-- A string behind its opening quotation mark. -/
def string? (cs : List Char) : Option (Option String × List Char) :=
  (units? [] cs).map fun (us, rest) => ((characters? us).map String.ofList, rest)

/-! ## 2. Numbers -/

/-- What is left behind a row of at least one digit, and how many there are. -/
def digits? (cs : List Char) : Option (List Char × List Char) :=
  let ds := cs.takeWhile Numeral.isDecimal
  if ds.isEmpty then none else some (ds, cs.drop ds.length)

/-- What is left behind a fraction that may stand at the front, and whether there is one. -/
def fraction? : List Char → Option (Bool × List Char)
  | '.' :: cs => (digits? cs).map fun (_, rest) => (true, rest)
  | cs => some (false, cs)

/-- What is left behind an exponent that may stand at the front, and whether there is one. -/
def exponent? : List Char → Option (Bool × List Char)
  | c :: cs =>
    if c = 'e' || c = 'E' then
      let body := match cs with
        | d :: rest => if d = '+' || d = '-' then rest else cs
        | [] => cs
      (digits? body).map fun (_, rest) => (true, rest)
    else some (false, c :: cs)
  | [] => some (false, [])

/-- A number.  Its whole part has no leading zero. -/
def number? (cs : List Char) : Option (Value × List Char) := do
  let (negative, body) := match cs with
    | '-' :: rest => (true, rest)
    | _ => (false, cs)
  let (ds, rest) ← digits? body
  if ds.head? = some '0' && ds.length ≠ 1 then none
  else
    let (hasFraction, rest) ← fraction? rest
    let (hasExponent, rest) ← exponent? rest
    let n : Int := Numeral.value 10 ds
    if hasFraction || hasExponent || (negative && n = 0) then return (.real, rest)
    else return (.integer (if negative then -n else n), rest)

/-! ## 3. Values -/

/-- The items of an array behind its opening bracket or a comma. -/
def items? (item : Reader α) : (room : Nat) → Reader (List α)
  | 0, _ => none
  | room + 1, cs => do
    let (first, cs) ← item cs
    match skipSpace cs with
    | ',' :: cs =>
      let (rest, cs) ← items? item room cs
      return (first :: rest, cs)
    | cs => return ([first], cs)

/-- A name, a colon and a value. -/
def member? (value : Reader Value) (cs : List Char) :
    Option ((Option String × Value) × List Char) :=
  match skipSpace cs with
  | '\x22' :: cs => do
    let (name, cs) ← string? cs
    match skipSpace cs with
    | ':' :: cs =>
      let (v, cs) ← value cs
      return ((name, v), cs)
    | _ => none
  | _ => none

/-- What is left behind `word`. -/
def word? (word : String) (cs : List Char) : Option (List Char) :=
  if cs.take word.length = word.toList then some (cs.drop word.length) else none

/-- A row of items up to `close`, which may be empty. -/
def row? (close : Char) (item : Reader α) (cs : List Char) : Option (List α × List Char) :=
  match skipSpace cs with
  | [] => none
  | c :: rest =>
    if c = close then some ([], rest)
    else do
      let (items, cs) ← items? item (rest.length + 1) (c :: rest)
      match cs with
      | d :: cs => if d = close then return (items, cs) else none
      | [] => none

/-- A value that nests to the given depth, behind space. -/
def value? : (depth : Nat) → Reader Value
  | 0, _ => none
  | depth + 1, cs =>
    match skipSpace cs with
    | [] => none
    | c :: rest =>
      if c = '\x7b' then
        (row? '\x7d' (member? (value? depth)) rest).map fun (ms, cs) => (.object ms, cs)
      else if c = '[' then (row? ']' (value? depth) rest).map fun (vs, cs) => (.array vs, cs)
      else if c = '\x22' then (string? rest).map fun (s, cs) => (.string s, cs)
      else if c = 't' then (word? "true" (c :: rest)).map (.boolean true, ·)
      else if c = 'f' then (word? "false" (c :: rest)).map (.boolean false, ·)
      else if c = 'n' then (word? "null" (c :: rest)).map (.null, ·)
      else number? (c :: rest)

/-- The value that the whole of `text` holds, with nothing but space around it. -/
def parse? (text : String) : Option Value :=
  let cs := text.toList
  match value? (cs.length + 1) cs with
  | some (v, rest) => if (skipSpace rest).isEmpty then some v else none
  | none => none

end ServerDiscovery.Json
