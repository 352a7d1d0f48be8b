import ServerDiscovery.Decimal.Numeral

/-! # The shortest decimal of a binary number

A finite floating-point number is the nearest one of its kind to every real number in an interval
around it.  Its shortest decimal is the one with the fewest digits in that interval and, of those,
the nearest to the number itself.  All arithmetic is exact: a decimal grid is a power of ten, and on
each grid only the two neighbours of the number can be the nearest point, so it is enough to try
those two on ever finer grids.

`FloatText` says how the digits are spelled: always by position, never with an exponent.
-/

namespace ServerDiscovery

/-- The number `digits * 10 ^ exponent`. -/
structure Decimal where
  digits : Nat
  exponent : Int
deriving DecidableEq, Repr

namespace Decimal

/-- A positive binary number `mantissa * 2 ^ exponent`, the nearest of its kind to the reals around
it.  The interval of those reaches half of the way to each neighbour, and the lower neighbour is
nearer by half if `tightBelow`. -/
structure Binary where
  mantissa : Nat
  exponent : Int
  tightBelow : Bool
deriving DecidableEq, Repr

/-- The numerator of `n * base ^ e`. -/
def scaleUp (base n : Nat) (e : Int) : Nat := n * base.pow e.toNat

/-- The denominator of `n * base ^ e`. -/
def scaleDown (base : Nat) (e : Int) : Nat := base.pow (-e).toNat

namespace Binary

/-- Four times the number, as a numerator over `denominator`. -/
def numerator (b : Binary) : Nat := 4 * scaleUp 2 b.mantissa b.exponent

/-- What numerators are divided by. -/
def denominator (b : Binary) : Nat := scaleDown 2 b.exponent

/-- A quarter of the distance to the next number above, in units of `numerator`. -/
def quarter (b : Binary) : Nat := scaleUp 2 1 b.exponent

/-- Whether `d` rounds to `b`.  The ends of the interval round to the number with an even
mantissa. -/
def contains (b : Binary) (d : Decimal) : Bool :=
  let point := 4 * scaleUp 10 d.digits d.exponent * b.denominator
  let unit := scaleDown 10 d.exponent
  let above := (b.numerator + 2 * b.quarter) * unit
  let below := (b.numerator - (if b.tightBelow then 1 else 2) * b.quarter) * unit
  if b.mantissa % 2 = 0 then below ≤ point && point ≤ above else below < point && point < above

/-- The largest multiple of `10 ^ e` that does not exceed `b`, divided by `10 ^ e`. -/
def floorOn (b : Binary) (e : Int) : Nat :=
  b.numerator * scaleDown 10 e / (4 * b.denominator * scaleUp 10 1 e)

/-- Whether the upper neighbour of `b` on the grid of `10 ^ e` is at least as near as the lower
one: a tie goes up. -/
def nearerAbove (b : Binary) (e : Int) : Bool :=
  let twice := 2 * b.numerator * scaleDown 10 e
  (2 * b.floorOn e + 1) * (4 * b.denominator * scaleUp 10 1 e) ≤ twice

/-- The nearest point to `b` on the grid of `10 ^ e`, if it rounds to `b`; or else the other
neighbour of `b` on that grid, if that one does. -/
def onGrid? (b : Binary) (e : Int) : Option Decimal :=
  let low : Decimal := ⟨b.floorOn e, e⟩
  let high : Decimal := ⟨b.floorOn e + 1, e⟩
  let (first, second) := if b.nearerAbove e then (high, low) else (low, high)
  if first.digits ≠ 0 && b.contains first then some first
  else if second.digits ≠ 0 && b.contains second then some second
  else none

/-- The exponent of the leading decimal digit of `b`. -/
def magnitude (b : Binary) : Int :=
  let unit := 4 * b.denominator
  if unit ≤ b.numerator then ((Nat.toDigits 10 (b.numerator / unit)).length : Int) - 1
  else -((Nat.toDigits 10 ((unit - 1) / b.numerator)).length : Int)

end Binary

/-- The same number without zeros at the end of its digits. -/
def stripZeros (d : Decimal) : Decimal :=
  if h : d.digits ≠ 0 ∧ d.digits % 10 = 0 then stripZeros ⟨d.digits / 10, d.exponent + 1⟩ else d
termination_by d.digits
decreasing_by omega

/-- The largest number of digits that a number may need to be told from its neighbours. -/
def maxDigits : Nat := 17

/-- The shortest decimal that rounds to `b`, and of the shortest the nearest. -/
def shortest (b : Binary) : Decimal :=
  let grids := (List.range maxDigits).map fun (n : Nat) => b.magnitude - n
  ((grids.findSome? b.onGrid?).getD ⟨b.floorOn (b.magnitude - 16), b.magnitude - 16⟩).stripZeros

end Decimal

/-! ## Floating-point numbers -/

/-- What a floating-point number is. -/
inductive FloatClass where
  | nan
  | infinite (negative : Bool)
  | zero (negative : Bool)
  | finite (negative : Bool) (magnitude : Decimal.Binary)
deriving DecidableEq, Repr

/-- The number of fractions that fifty-two bits can spell. -/
def fractionCount : Nat := Nat.pow 2 52

/-- The class of the number with the given bits: a sign, eleven bits of exponent and fifty-two of
mantissa. -/
def FloatClass.ofBits (bits : UInt64) : FloatClass :=
  let negative : Bool := UInt64.size / 2 ≤ bits.toNat
  let exponent : Nat := bits.toNat / fractionCount % 2048
  let fraction : Nat := bits.toNat % fractionCount
  if exponent = 2047 then if fraction = 0 then .infinite negative else .nan
  else if exponent = 0 then
    if fraction = 0 then .zero negative else .finite negative ⟨fraction, -1074, false⟩
  else
    .finite negative
      ⟨fractionCount + fraction, (exponent : Int) - 1075, fraction = 0 && exponent ≠ 1⟩

/-- How the digits of a floating-point number are spelled. -/
structure FloatText where
  /-- What follows a number without a fraction. -/
  wholeSuffix : String
  nan : String
  infinity : String

namespace FloatText

/-- The digits of `d` by position. -/
def positional (style : FloatText) (d : Decimal) : String :=
  let digits := Numeral.decimal d.digits
  if 0 ≤ d.exponent then
    digits ++ String.ofList (List.replicate d.exponent.toNat '0') ++ style.wholeSuffix
  else
    let places := (-d.exponent).toNat
    let padded := (Numeral.padded (places + 1) digits).toList
    String.ofList (padded.take (padded.length - places)) ++ "."
      ++ String.ofList (padded.drop (padded.length - places))

/-- The text of a number. -/
def render (style : FloatText) (x : Float) : String :=
  match FloatClass.ofBits x.toBits with
  | .nan => style.nan
  | .infinite negative => sign negative ++ style.infinity
  | .zero negative => sign negative ++ "0" ++ style.wholeSuffix
  | .finite negative b => sign negative ++ style.positional (Decimal.shortest b)
where
  /-- A minus sign in front of negative numbers. -/
  sign (negative : Bool) : String := if negative then "-" else ""

end FloatText

end ServerDiscovery
