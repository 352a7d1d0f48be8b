import ServerDiscovery.Wire.Text

/-! # Buffers of fields

A buffer holds the bytes of the fields that were written and not yet read.  Fields are written at
its end and read from its front, so it is a queue; a read that fails leaves it as it was.
-/

namespace ServerDiscovery.Wire

/-- Fields that wait to be read, as bytes. -/
structure FieldBuffer where
  bytes : Bytes := []
deriving DecidableEq, Repr, Inhabited

/-- A number that is no signed 32-bit number cannot be written. -/
structure OutOfRange where
  value : Int
deriving DecidableEq, Repr

/-- What a person is told about a number that cannot be written. -/
def OutOfRange.message (e : OutOfRange) : String :=
  "value to pack is out of bounds: " ++ toString e.value
    ++ ", should be within range [-2147483648:2147483647] (32bit)"

namespace FieldBuffer

/-- The number of bytes that are not yet read. -/
def size (b : FieldBuffer) : Nat := b.bytes.length

/-- Whether nothing is left to read. -/
def isEmpty (b : FieldBuffer) : Bool := b.bytes.isEmpty

/-- The buffer without its fields. -/
def clear (_ : FieldBuffer) : FieldBuffer := {}

/-- Write an integer. -/
def pushInteger (b : FieldBuffer) (v : Int32) : FieldBuffer := ⟨b.bytes ++ packInteger v⟩

/-- Write an integer of any size, if it has a packed form.  A number is never cut to fit. -/
def pushInteger? (b : FieldBuffer) (v : Int) : Except OutOfRange FieldBuffer :=
  if Int32.minValue.toInt ≤ v ∧ v ≤ Int32.maxValue.toInt then .ok (b.pushInteger (Int32.ofInt v))
  else .error ⟨v⟩

/-- Write a text. -/
def pushText (b : FieldBuffer) (text : String) : FieldBuffer := ⟨b.bytes ++ packText text⟩

/-- Read with `reader` at the front; a failed read leaves the buffer as it was. -/
def popWith (reader : Bytes → Except FieldError (α × Bytes)) (b : FieldBuffer) :
    Except FieldError α × FieldBuffer :=
  match reader b.bytes with
  | .ok (value, rest) => (.ok value, ⟨rest⟩)
  | .error e => (.error e, b)

/-- A read succeeds if the reader does, and leaves what the reader leaves. -/
theorem popWith_eq_ok_iff {reader : Bytes → Except FieldError (α × Bytes)} {b left : FieldBuffer}
    {value : α} :
    b.popWith reader = (.ok value, left) ↔ reader b.bytes = .ok (value, left.bytes) := by
  unfold popWith
  constructor
  · intro h
    split at h
    · next hr =>
      cases h
      exact hr
    · cases h
  · intro h
    rw [h]

/-- A read fails as the reader does, and leaves the buffer as it was. -/
theorem popWith_of_error {reader : Bytes → Except FieldError (α × Bytes)} {b : FieldBuffer}
    {e : FieldError} (h : reader b.bytes = .error e) : b.popWith reader = (.error e, b) := by
  rw [popWith, h]

theorem popWith_fst_eq_error_iff {reader : Bytes → Except FieldError (α × Bytes)} {b : FieldBuffer}
    {e : FieldError} : (b.popWith reader).1 = .error e ↔ reader b.bytes = .error e := by
  unfold popWith
  split
  · next hr => simp [hr]
  · next hr => simp [hr]

/-- Read an integer. -/
def popInteger (b : FieldBuffer) : Except FieldError Int32 × FieldBuffer := b.popWith unpackInteger

/-- Read a text. -/
def popText (b : FieldBuffer) : Except FieldError String × FieldBuffer := b.popWith unpackText

end FieldBuffer

end ServerDiscovery.Wire
