/-! # Byte strings

Datagrams and their fields are lists of bytes, so that a reader is a recursion on what is left to
read and a writer is an append.  Numbers of fixed width stand in network order, most significant
byte first; `ofBigEndian16_bigEndian16` says that a number can be read back from its two bytes.
-/

namespace ServerDiscovery

/-- Bytes in the order in which they are sent. -/
abbrev Bytes := List UInt8

/-- The two bytes of a 16-bit number, most significant first. -/
def bigEndian16 (n : UInt16) : Bytes := [UInt8.ofNat (n.toNat / 256), UInt8.ofNat (n.toNat % 256)]

/-- The 16-bit number whose most significant byte is `high`. -/
def ofBigEndian16 (high low : UInt8) : UInt16 := UInt16.ofNat (high.toNat * 256 + low.toNat)

theorem ofBigEndian16_bigEndian16 (n : UInt16) :
    ofBigEndian16 (UInt8.ofNat (n.toNat / 256)) (UInt8.ofNat (n.toNat % 256)) = n := by
  have h := n.toNat_lt
  apply UInt16.toNat_inj.1
  simp only [ofBigEndian16, UInt8.toNat_ofNat', UInt16.toNat_ofNat']
  omega

theorem bigEndian16_ofBigEndian16 (high low : UInt8) :
    bigEndian16 (ofBigEndian16 high low) = [high, low] := by
  have h := high.toNat_lt
  have l := low.toNat_lt
  simp only [bigEndian16, ofBigEndian16, UInt16.toNat_ofNat', List.cons.injEq, and_true]
  constructor <;> apply UInt8.toNat_inj.1 <;> simp only [UInt8.toNat_ofNat'] <;> omega

/-- Four bytes that travel together: the half of a token that one side of a handshake chooses. -/
structure Nonce where
  first : UInt8
  second : UInt8
  third : UInt8
  fourth : UInt8
deriving DecidableEq, Repr, Inhabited

namespace Nonce

/-- The four bytes, in order. -/
def toBytes (n : Nonce) : Bytes := [n.first, n.second, n.third, n.fourth]

/-- The nonce at the front of `bytes`; `none` if they are fewer than four. -/
def ofBytes? : Bytes → Option Nonce
  | a :: b :: c :: d :: _ => some ⟨a, b, c, d⟩
  | _ => none

/-- The nonce read as a signed 32-bit number, most significant byte first. -/
def toInt32 (n : Nonce) : Int32 :=
  (UInt32.ofNat (((n.first.toNat * 256 + n.second.toNat) * 256 + n.third.toNat) * 256
    + n.fourth.toNat)).toInt32

@[simp] theorem length_toBytes (n : Nonce) : n.toBytes.length = 4 := rfl

theorem ofBytes?_append (n : Nonce) (rest : Bytes) : ofBytes? (n.toBytes ++ rest) = some n := rfl

end Nonce

end ServerDiscovery
