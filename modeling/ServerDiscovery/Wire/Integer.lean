import ServerDiscovery.Bytes

/-! # Packed integers

A signed 32-bit number takes one to five bytes.  It is first turned into a sign and a magnitude:
the magnitude of a negative number is its bitwise complement, so both signs have magnitudes below
`2 ^ 31` and no number has two forms.  The first byte holds the sign (bit 6) and the low six bits of
the magnitude, every further byte seven more bits; bit 7 of a byte says that another one follows.

A reader meets more than a writer makes: padding with zero groups, a fifth byte whose bit 7 is set
(it ends the number all the same) and magnitudes beyond 32 bits (which wrap).  `Canonical` singles
out the byte strings that a writer makes.
-/

namespace ServerDiscovery.Wire

/-- The largest number of bytes that a packed integer takes. -/
def maxIntegerSize : Nat := 5

/-- What can be wrong where a field is to be read. -/
inductive FieldError where
  /-- Nothing is left to read. -/
  | noData
  /-- The bytes end inside an integer. -/
  | truncatedInteger
  /-- No byte that ends a text is left. -/
  | unterminatedText
deriving DecidableEq, Repr

/-- What a person is told about a field error. -/
def FieldError.message : FieldError → String
  | .noData => "no data to unpack"
  | .truncatedInteger => "varint continues past the end of the buffer"
  | .unterminatedText => "string is not NUL terminated"

/-! ## 1. Writing -/

/-- The groups of seven bits of `n`, low ones first, each but the last marked as continued.
`n = 0` still takes a byte. -/
def packGroups (n : Nat) : Bytes :=
  if n < 128 then [UInt8.ofNat n] else UInt8.ofNat (n % 128 + 128) :: packGroups (n / 128)

/-- The magnitude of `v`: `v` itself, or its complement if it is negative. -/
def magnitude (v : Int32) : Nat :=
  if v < 0 then (~~~v).toUInt32.toNat else v.toUInt32.toNat

/-- The bit of the first byte that marks a negative number, as a number to add. -/
def signBit (v : Int32) : Nat := if v < 0 then 64 else 0

/-- The bytes of `v`. -/
def packInteger (v : Int32) : Bytes :=
  if magnitude v < 64 then [UInt8.ofNat (signBit v + magnitude v)]
  else UInt8.ofNat (128 + signBit v + magnitude v % 64) :: packGroups (magnitude v / 64)

/-! ## 2. Reading -/

/-- Whether another byte follows `b`. -/
def isContinued (b : UInt8) : Bool := 128 ≤ b

/-- Whether the first byte `b` marks a negative number. -/
def isNegative (b : UInt8) : Bool := 64 ≤ b.toNat % 128

/-- The value of at most `count` groups of seven bits at the front of `bytes`, and what is left;
`none` if the bytes end too early.  The last of the `count` groups ends the number whatever its
bit 7 says. -/
def unpackGroups : (count : Nat) → Bytes → Option (Nat × Bytes)
  | 0, bytes => some (0, bytes)
  | _ + 1, [] => none
  | count + 1, b :: bytes =>
    if isContinued b then
      match unpackGroups count bytes with
      | some (n, rest) => some (b.toNat % 128 + 128 * n, rest)
      | none => none
    else some (b.toNat % 128, bytes)

/-- The number with a magnitude of `n`, taken modulo `2 ^ 32`. -/
def ofMagnitude (negative : Bool) (n : Nat) : Int32 :=
  if negative then ~~~(UInt32.ofNat n).toInt32 else (UInt32.ofNat n).toInt32

/-- The integer at the front of `bytes`, and what is left. -/
def unpackInteger : Bytes → Except FieldError (Int32 × Bytes)
  | [] => .error .noData
  | b :: bytes =>
    if isContinued b then
      match unpackGroups (maxIntegerSize - 1) bytes with
      | some (n, rest) => .ok (ofMagnitude (isNegative b) (b.toNat % 64 + 64 * n), rest)
      | none => .error .truncatedInteger
    else .ok (ofMagnitude (isNegative b) (b.toNat % 64), bytes)

/-- The bytes that a writer makes of some integer: the last byte of a longer form carries a bit, and
a fifth byte does not reach beyond the 31 bits of a magnitude. -/
def Canonical (bytes : Bytes) : Prop :=
  bytes.length = 1 ∨
    (∃ last ∈ bytes.getLast?, last.toNat % 128 ≠ 0 ∧ (bytes.length = 5 → last.toNat ≤ 15))

/-! ## 3. Small laws of the reader -/

theorem length_of_unpackGroups {count : Nat} {bytes rest : Bytes} {n : Nat}
    (h : unpackGroups count bytes = some (n, rest)) : rest.length ≤ bytes.length := by
  fun_induction unpackGroups count bytes generalizing n rest with
  | case1 => grind
  | case2 => contradiction
  | case3 count b bytes hb m r hr ih =>
    have := ih hr
    grind
  | case4 => contradiction
  | case5 => grind

/-- A successful read consumes at least one byte. -/
theorem length_of_unpackInteger {bytes rest : Bytes} {v : Int32}
    (h : unpackInteger bytes = .ok (v, rest)) : rest.length < bytes.length := by
  unfold unpackInteger at h
  split at h
  · contradiction
  · split at h
    · split at h
      · rename_i hg
        have := length_of_unpackGroups hg
        grind
      · contradiction
    · grind

end ServerDiscovery.Wire
