import ServerDiscovery.Decimal.Shortest

/-! # The binary number nearest to a decimal

The reading counterpart of the shortest decimal: the floating-point number nearest to
`digits * 10 ^ exponent`.  Numbers far outside the range of floating-point numbers are settled
before any power of ten is computed, so an exponent in a text cannot cost more than its digits.
-/

namespace ServerDiscovery.Decimal

/-- Beyond this exponent of its leading digit a number is infinite, or zero below its negative. -/
def magnitudeLimit : Int := 400

/-- The floating-point number nearest to `d`. -/
def toFloat (d : Decimal) : Float :=
  let magnitude : Int := d.exponent + (Nat.toDigits 10 d.digits).length
  if d.digits = 0 then 0.0
  else if magnitudeLimit < magnitude then 1.0 / 0.0
  else if magnitude < -magnitudeLimit then 0.0
  else Float.ofScientific d.digits (d.exponent < 0) d.exponent.natAbs

end ServerDiscovery.Decimal
