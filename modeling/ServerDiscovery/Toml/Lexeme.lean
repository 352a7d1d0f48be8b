import ServerDiscovery.Decimal.Scientific
import ServerDiscovery.Toml.Value

/-! # The words of a document

Readers for what a document is made of below the level of values: space, comments, keys, strings,
numbers and dates.  A reader takes characters from the front and gives what it read and what is
left, or `none` if the document is malformed there.

There are four kinds of strings: in quotation marks, with escapes, and in apostrophes, without; each
on one line, or between threefold delimiters on several.  Up to two delimiters in a row belong to
the text of a string on several lines, also right in front of its end, which therefore is the last
three of at most five.
-/

namespace ServerDiscovery.Toml

/-- Takes something from the front of a text. -/
abbrev Reader (α : Type) := List Char → Option (α × List Char)

/-! ## 1. Space, comments and line ends -/

/-- A space or a tab. -/
def isSpace (c : Char) : Bool := c = ' ' || c = '\t'

/-- A character that may stand in a comment, in a string in apostrophes, or unescaped in a string in
quotation marks: no control character but the tab. -/
def isPlain (c : Char) : Bool := c = '\t' || (0x20 ≤ c.toNat && c.toNat ≠ 0x7F)

/-- What is left behind spaces and tabs. -/
def skipSpace (cs : List Char) : List Char := cs.dropWhile isSpace

/-- What is left behind a line break: a line feed, with or without a carriage return. -/
def newline? : List Char → Option (List Char)
  | '\n' :: cs => some cs
  | '\r' :: '\n' :: cs => some cs
  | _ => none

/-- What is left behind the end of a line or of the document. -/
def lineEnd? (cs : List Char) : Option (List Char) := if cs.isEmpty then some [] else newline? cs

/-- What is left behind a comment that may stand at the front. -/
def skipComment (cs : List Char) : List Char :=
  if cs.head? = some '#' then cs.dropWhile isPlain else cs

/-- What is left behind the rest of a line that holds nothing but space and a comment. -/
def lineTail? (cs : List Char) : Option (List Char) := lineEnd? (skipComment (skipSpace cs))

/-- What is left behind space, line breaks and comments, each of which ends with its line.
`inComment` says that a comment has begun. -/
def skipFiller? (inComment : Bool) : List Char → Option (List Char)
  | [] => if inComment then none else some []
  | '\n' :: cs => skipFiller? false cs
  | '\r' :: '\n' :: cs => skipFiller? false cs
  | c :: cs =>
    if inComment then if isPlain c then skipFiller? true cs else none
    else if isSpace c then skipFiller? false cs
    else if c = '#' then skipFiller? true cs
    else if c = '\r' then none
    else some (c :: cs)

/-! ## 2. Strings -/

/-- The character with the code point that `digits` name in base sixteen, unless it is a
surrogate or none at all. -/
def codePoint? (digits : List Char) : Option Char :=
  let n := Numeral.value 16 digits
  if digits.all Numeral.isHex && (n < 0xD800 || (0xDFFF < n && n < 0x110000)) then
    some (Char.ofNat n)
  else none

/-- The escapes of one letter. -/
def shortEscapes : List (Char × Char) :=
  [('b', '\x08'), ('t', '\t'), ('n', '\n'), ('f', '\x0c'), ('r', '\r'), ('\x22', '\x22'),
    ('\x5c', '\x5c')]

/-- The character named by exactly `count` digits of base sixteen. -/
def hexEscape? (count : Nat) (cs : List Char) : Option (Char × List Char) :=
  if (cs.take count).length = count then (codePoint? (cs.take count)).map (·, cs.drop count)
  else none

/-- The character that an escape stands for; the text begins behind the backslash. -/
def escape? : Reader Char
  | [] => none
  | c :: cs =>
    if c = 'u' then hexEscape? 4 cs
    else if c = 'U' then hexEscape? 8 cs
    else (shortEscapes.lookup c).map (·, cs)

theorem length_of_escape? {cs rest : List Char} {c : Char} (h : escape? cs = some (c, rest)) :
    rest.length < cs.length := by
  unfold escape? hexEscape? at h
  grind [Option.map_eq_some_iff]

/-- A string in quotation marks behind the first of them. -/
def quoted? : Reader (List Char)
  | [] => none
  | c :: cs =>
    if c = '\x22' then some ([], cs)
    else if c = '\x5c' then
      match h : escape? cs with
      | some (d, rest) =>
        have := length_of_escape? h
        (quoted? rest).map fun (text, rest) => (d :: text, rest)
      | none => none
    else if isPlain c then (quoted? cs).map fun (text, rest) => (c :: text, rest)
    else none
termination_by cs => cs.length
decreasing_by all_goals grind

/-- A string in apostrophes behind the first of them. -/
def literal? : Reader (List Char)
  | [] => none
  | c :: cs =>
    if c = '\x27' then some ([], cs)
    else if isPlain c then (literal? cs).map fun (text, rest) => (c :: text, rest)
    else none

/-- What is left behind a line that ends with a backslash: the rest of that line and all space and
line breaks that follow. -/
def continued? (cs : List Char) : Option (List Char) := (newline? (skipSpace cs)).map skipLines
where
  /-- What is left behind space and line breaks. -/
  skipLines : List Char → List Char
    | '\r' :: '\n' :: cs => skipLines cs
    | c :: cs => if isSpace c || c = '\n' then skipLines cs else c :: cs
    | [] => []

theorem length_skipLines_le (cs : List Char) : (continued?.skipLines cs).length ≤ cs.length := by
  fun_induction continued?.skipLines cs <;> simp_all <;> omega

theorem length_of_newline? {cs rest : List Char} (h : newline? cs = some rest) :
    rest.length < cs.length := by
  unfold newline? at h
  grind

theorem length_of_continued? {cs rest : List Char} (h : continued? cs = some rest) :
    rest.length < cs.length := by
  obtain ⟨mid, hm, rfl⟩ := Option.map_eq_some_iff.1 h
  have h₁ := length_of_newline? hm
  have h₂ := length_skipLines_le mid
  have h₃ : (skipSpace cs).length ≤ cs.length := (List.dropWhile_suffix _).length_le
  omega

/-- The end of a string on several lines, at a row of delimiters: `none` if the row is too short to
be the end, or else the delimiters that belong to the text and what is left.  A row of more than
five is malformed, because it leaves delimiters behind the end. -/
def closing? (delimiter : Char) : Reader (List Char)
  | cs =>
    let row := (cs.takeWhile (· = delimiter)).length
    if row < 3 then none else some (List.replicate (min row 5 - 3) delimiter, cs.drop (min row 5))

/-- A string in quotation marks on several lines, behind its opening. -/
def quotedLines? : Reader (List Char)
  | [] => none
  | c :: cs =>
    match closing? '\x22' (c :: cs) with
    | some result => some result
    | none =>
      if c = '\x5c' then
        match h : continued? cs with
        | some rest =>
          have := length_of_continued? h
          quotedLines? rest
        | none =>
          match h : escape? cs with
          | some (d, rest) =>
            have := length_of_escape? h
            (quotedLines? rest).map fun (text, rest) => (d :: text, rest)
          | none => none
      else if isPlain c || c = '\n' then
        (quotedLines? cs).map fun (text, rest) => (c :: text, rest)
      else if c = '\r' && cs.head? = some '\n' then quotedLines? cs
      else none
termination_by cs => cs.length
decreasing_by all_goals grind

/-- A string in apostrophes on several lines, behind its opening. -/
def literalLines? : Reader (List Char)
  | [] => none
  | c :: cs =>
    match closing? '\x27' (c :: cs) with
    | some result => some result
    | none =>
      if isPlain c || c = '\n' then
        (literalLines? cs).map fun (text, rest) => (c :: text, rest)
      else if c = '\r' && cs.head? = some '\n' then literalLines? cs
      else none

/-- What is left behind a line break that may stand at the front. -/
def skipNewline (cs : List Char) : List Char := (newline? cs).getD cs

/-- A string of any kind. -/
def string? : Reader String
  | '\x22' :: '\x22' :: '\x22' :: cs => named (quotedLines? (skipNewline cs))
  | '\x22' :: cs => named (quoted? cs)
  | '\x27' :: '\x27' :: '\x27' :: cs => named (literalLines? (skipNewline cs))
  | '\x27' :: cs => named (literal? cs)
  | _ => none
where
  /-- The characters as a text. -/
  named (r : Option (List Char × List Char)) : Option (String × List Char) :=
    r.map fun (text, rest) => (String.ofList text, rest)

/-! ## 3. Keys -/

/-- A character of a key that needs no quotes. -/
def isBare (c : Char) : Bool := c.isAlphanum || c = '-' || c = '_'

/-- A single key: bare, or a string on one line. -/
def simpleKey? : Reader String
  | '\x22' :: cs => string?.named (quoted? cs)
  | '\x27' :: cs => string?.named (literal? cs)
  | cs =>
    let name := cs.takeWhile isBare
    if name.isEmpty then none else some (String.ofList name, cs.drop name.length)

/-- How deep keys and values may be nested. -/
def maxDepth : Nat := 79

/-- At most `room` keys with dots between them, with space around each. -/
def keyPath? : (room : Nat) → Reader (List String)
  | 0, _ => none
  | room + 1, cs => do
    let (key, cs) ← simpleKey? (skipSpace cs)
    match skipSpace cs with
    | '.' :: cs =>
      let (keys, cs) ← keyPath? room cs
      return (key :: keys, cs)
    | cs => return ([key], cs)

/-! ## 4. Numbers -/

/-- The digits behind the first digit of a number, without the underscores between them. -/
def moreDigits? (isDigit : Char → Bool) : Reader (List Char)
  | '_' :: c :: cs =>
    if isDigit c then (moreDigits? isDigit cs).map fun (ds, rest) => (c :: ds, rest) else none
  | c :: cs =>
    if c = '_' then none
    else if isDigit c then (moreDigits? isDigit cs).map fun (ds, rest) => (c :: ds, rest)
    else some ([], c :: cs)
  | [] => some ([], [])

/-- A row of at least one digit, with single underscores between digits. -/
def digits? (isDigit : Char → Bool) : Reader (List Char)
  | c :: cs =>
    if isDigit c then (moreDigits? isDigit cs).map fun (ds, rest) => (c :: ds, rest) else none
  | [] => none

/-- The digits of a whole number, which has no leading zero. -/
def wholeDigits? : Reader (List Char)
  | '0' :: cs => some (['0'], cs)
  | cs => digits? Numeral.isDecimal cs

/-- A number of base `base` behind its mark. -/
def based? (base : Nat) (isDigit : Char → Bool) (cs : List Char) : Option (Value × List Char) := do
  let (ds, rest) ← digits? isDigit cs
  let n := Numeral.value base ds
  if n ≤ maxInteger then return (.integer n, rest) else none

/-- A sign, if there is one: whether it is a minus. -/
def sign : List Char → Bool × List Char
  | '-' :: cs => (true, cs)
  | '+' :: cs => (false, cs)
  | cs => (false, cs)

/-- The digits behind a point, if there is one. -/
def fraction? : Reader (List Char)
  | '.' :: cs => digits? Numeral.isDecimal cs
  | cs => some ([], cs)

/-- An exponent, if there is one. -/
def exponent? : Reader Int
  | 'e' :: cs => signed cs
  | 'E' :: cs => signed cs
  | cs => some (0, cs)
where
  /-- The digits of an exponent, with a sign if there is one. -/
  signed (cs : List Char) : Option (Int × List Char) :=
    let (negative, cs) := sign cs
    (digits? Numeral.isDecimal cs).map fun (ds, rest) =>
      let n : Int := Numeral.value 10 ds
      (if negative then -n else n, rest)

/-- Whether a number goes on as a floating-point number. -/
def isFloating : List Char → Bool
  | c :: _ => c = '.' || c = 'e' || c = 'E'
  | [] => false

/-- A number in base ten: an integer that a document can hold, or a floating-point number that is
not too large. -/
def decimal? (cs : List Char) : Option (Value × List Char) := do
  let (negative, body) := sign cs
  match body with
  | 'i' :: 'n' :: 'f' :: rest => return (.float (if negative then -1.0 / 0.0 else 1.0 / 0.0), rest)
  | 'n' :: 'a' :: 'n' :: rest => return (.float (0.0 / 0.0), rest)
  | _ =>
    let (whole, rest) ← wholeDigits? body
    if isFloating rest then
      let (fraction, rest) ← fraction? rest
      let (exponent, rest) ← exponent? rest
      let number := Decimal.toFloat
        ⟨Numeral.value 10 (whole ++ fraction), exponent - fraction.length⟩
      if negative then return (.float (-number), rest)
      else if number == 1.0 / 0.0 then none
      else return (.float number, rest)
    else
      let n : Nat := Numeral.value 10 whole
      if negative then if n ≤ maxInteger + 1 then return (.integer (-n), rest) else none
      else if n ≤ maxInteger then return (.integer n, rest) else none

/-- A digit of base eight. -/
def isOctal (c : Char) : Bool := '0' ≤ c && c ≤ '7'

/-- A digit of base two. -/
def isBinary (c : Char) : Bool := c = '0' || c = '1'

/-- A number in any base. -/
def number? : List Char → Option (Value × List Char)
  | '0' :: 'x' :: cs => based? 16 Numeral.isHex cs
  | '0' :: 'o' :: cs => based? 8 isOctal cs
  | '0' :: 'b' :: cs => based? 2 isBinary cs
  | cs => decimal? cs

/-! ## 5. Dates and times -/

/-- Exactly `count` digits, with a value between `least` and `greatest`. -/
def fixed? (count least greatest : Nat) (cs : List Char) : Option (Nat × List Char) :=
  let ds := cs.take count
  let n := Numeral.value 10 ds
  if ds.length = count && ds.all Numeral.isDecimal && least ≤ n && n ≤ greatest then
    some (n, cs.drop count)
  else none

/-- What is left behind the given character. -/
def skip? (c : Char) : List Char → Option (List Char)
  | d :: cs => if c = d then some cs else none
  | [] => none

/-- The number of days of a month. -/
def daysIn (year month : Nat) : Nat :=
  if month = 2 then
    if year % 4 = 0 ∧ (year % 100 ≠ 0 ∨ year % 400 = 0) then 29 else 28
  else if month = 4 ∨ month = 6 ∨ month = 9 ∨ month = 11 then 30
  else 31

/-- What is left behind a date. -/
def date? (cs : List Char) : Option (List Char) := do
  let (year, cs) ← fixed? 4 0 9999 cs
  let (month, cs) ← fixed? 2 1 12 (← skip? '-' cs)
  let (_, cs) ← fixed? 2 1 (daysIn year month) (← skip? '-' cs)
  return cs

/-- What is left behind a fraction of a second that may stand at the front. -/
def skipSecondFraction : List Char → List Char
  | '.' :: cs =>
    if cs.head?.any Numeral.isDecimal then cs.dropWhile Numeral.isDecimal else '.' :: cs
  | cs => cs

/-- What is left behind a time of day. -/
def time? (cs : List Char) : Option (List Char) := do
  let (_, cs) ← fixed? 2 0 23 cs
  let (_, cs) ← fixed? 2 0 59 (← skip? ':' cs)
  let (_, cs) ← fixed? 2 0 60 (← skip? ':' cs)
  return skipSecondFraction cs

/-- What is left behind an offset from universal time that may stand at the front. -/
def skipOffset? : List Char → Option (List Char)
  | 'Z' :: cs => some cs
  | 'z' :: cs => some cs
  | c :: cs =>
    if c = '+' || c = '-' then do
      let (_, cs) ← fixed? 2 0 23 cs
      let (_, cs) ← fixed? 2 0 59 (← skip? ':' cs)
      return cs
    else some (c :: cs)
  | [] => some []

/-- Whether `count` digits and then `mark` stand at the front. -/
def beginsWith (count : Nat) (mark : Char) (cs : List Char) : Bool :=
  (cs.take count).all Numeral.isDecimal && (cs.drop count).head? = some mark

/-- Whether a date stands at the front. -/
def looksLikeDate (cs : List Char) : Bool := beginsWith 4 '-' cs

/-- Whether a time stands at the front. -/
def looksLikeTime (cs : List Char) : Bool := beginsWith 2 ':' cs

/-- What is left behind a date, with a time behind a `T` or a space if there is one, and an offset
behind that. -/
def dateTime? (cs : List Char) : Option (List Char) := do
  let cs ← date? cs
  match cs with
  | c :: rest =>
    if (c = 'T' || c = 't' || c = ' ') && looksLikeTime rest then skipOffset? (← time? rest)
    else return cs
  | [] => return []

/-- A date, a time or a number. -/
def dateOrNumber? (cs : List Char) : Option (Value × List Char) :=
  let written (rest : List Char) : Value × List Char :=
    (.datetime (String.ofList (cs.take (cs.length - rest.length))), rest)
  if looksLikeDate cs then (dateTime? cs).map written
  else if looksLikeTime cs then (time? cs).map written
  else number? cs

end ServerDiscovery.Toml
