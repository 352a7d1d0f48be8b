/-! # Numerals

The text of a natural number in base ten or sixteen, read and written.  A reader takes all the
digits that stand at the front and then judges them: how many there may be, whether they may begin
with a zero, and how large their value may be.  The digits are the ASCII ones; a digit of another
script ends a numeral.
-/

namespace ServerDiscovery.Numeral

/-- The value of a digit of base ten or, if `hex`, of base sixteen in either case. -/
def digit? (hex : Bool) (c : Char) : Option Nat :=
  if '0' ≤ c ∧ c ≤ '9' then some (c.toNat - '0'.toNat)
  else if hex ∧ 'a' ≤ c ∧ c ≤ 'f' then some (c.toNat - 'a'.toNat + 10)
  else if hex ∧ 'A' ≤ c ∧ c ≤ 'F' then some (c.toNat - 'A'.toNat + 10)
  else none

/-- Whether `c` is a digit of base ten. -/
def isDecimal (c : Char) : Bool := (digit? false c).isSome

/-- Whether `c` is a digit of base sixteen. -/
def isHex (c : Char) : Bool := (digit? true c).isSome

/-- The value of a row of digits in `base`, most significant first. -/
def value (base : Nat) (digits : List Char) : Nat :=
  digits.foldl (fun n c => base * n + ((digit? true c).getD 0)) 0

/-- What a numeral may look like. -/
structure Form where
  /-- Base sixteen instead of base ten. -/
  hex : Bool := false
  /-- The largest number of digits. -/
  maxDigits : Option Nat := none
  /-- Whether more than one digit may begin with a zero. -/
  leadingZero : Bool := true
  /-- The largest value. -/
  limit : Nat

/-- The number at the front of `cs`, and what is left; `none` if no digit stands there or the
digits do not have the form. -/
def read? (form : Form) (cs : List Char) : Option (Nat × List Char) :=
  let digits := cs.takeWhile fun c => (digit? form.hex c).isSome
  let number := value (if form.hex then 16 else 10) digits
  if digits.isEmpty then none
  else if form.maxDigits.any (· < digits.length) then none
  else if !form.leadingZero && digits.head? == some '0' && digits.length > 1 then none
  else if form.limit < number then none
  else some (number, cs.drop digits.length)

/-- The number that the whole of `text` names in base ten: digits, after a plus sign if there is
one, with a value of at most `limit`. -/
def unsigned? (limit : Nat) (text : String) : Option Nat :=
  let digits := match text.toList with
    | '+' :: cs => cs
    | cs => cs
  match read? { limit } digits with
  | some (n, []) => some n
  | _ => none

/-- The numeral of `n` in base ten. -/
def decimal (n : Nat) : String := String.ofList (Nat.toDigits 10 n)

/-- The numeral of `n` in base sixteen, in lower case. -/
def hexadecimal (n : Nat) : String := String.ofList (Nat.toDigits 16 n)

/-- A numeral with zeros in front, at least `width` digits long. -/
def padded (width : Nat) (numeral : String) : String :=
  String.ofList (List.replicate (width - numeral.length) '0') ++ numeral

end ServerDiscovery.Numeral
