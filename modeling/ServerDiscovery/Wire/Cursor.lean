import ServerDiscovery.Wire.Integer

/-! # Unpacking with a cursor

A reader that runs does not take a list apart.  It looks bytes up by their index, moves a cursor on
as long as the byte under it announces another one, and puts seven bits of each into a 32-bit word;
at the end it removes what lies up to the cursor.  Three things no such reader may do: look up a
byte that is not there, shift a word by as many bits as it has, and remove more bytes than there
are.  An attempt to do so is `none`.

To ask for the byte behind the cursor is no such fault.  If it is missing, the integer is truncated.

`Wire.unpackAtCursor?_eq` says that there is no fault, and that the outcome is that of
`unpackInteger`.
-/

namespace ServerDiscovery.Wire

/-- The word shifted to the left; `none` if none of its bits would stay. -/
def shiftLeft? (word : UInt32) (amount : Nat) : Option UInt32 :=
  if amount < 32 then some (word <<< UInt32.ofNat amount) else none

/-- The bytes without the first `count`; `none` if there are fewer. -/
def advance? (bytes : Bytes) (count : Nat) : Option Bytes :=
  if count ≤ bytes.length then some (bytes.drop count) else none

/-- Move the cursor on from `index`, and put what it passes into `word`, until it is at the last
byte of the integer.  The answer is the word, and where the cursor is. -/
def readGroups? (bytes : Bytes) (index : Nat) (word : UInt32) :
    Option (Except FieldError (UInt32 × Nat)) :=
  match bytes[index]? with
  | none => none
  | some byte =>
    if byte &&& 0x80 ≠ 0 ∧ index < maxIntegerSize - 1 then
      match bytes[index + 1]? with
      | none => some (.error .truncatedInteger)
      | some next =>
        (shiftLeft? (next &&& 0x7F).toUInt32 (6 + 7 * index)).bind fun group =>
          readGroups? bytes (index + 1) (word ||| group)
    else some (.ok (word, index))
termination_by maxIntegerSize - index
decreasing_by omega

/-- The integer at the front of `bytes`, read with a cursor, and what is left; `none` if the reader
does what none may do. -/
def unpackAtCursor? (bytes : Bytes) : Option (Except FieldError (Int32 × Bytes)) :=
  match bytes[0]? with
  | none => some (.error .noData)
  | some first =>
    (readGroups? bytes 0 (first &&& 0x3F).toUInt32).bind fun
      | .error e => some (.error e)
      | .ok (word, index) =>
        let value := word.toInt32
        (advance? bytes (index + 1)).map fun rest =>
          .ok (if first &&& 0x40 ≠ 0 then ~~~value else value, rest)

end ServerDiscovery.Wire
