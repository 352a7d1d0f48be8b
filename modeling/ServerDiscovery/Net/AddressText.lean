import ServerDiscovery.Decimal.Numeral
import ServerDiscovery.Net.Address

/-! # The text of addresses

An address is written `host:port`, a host of sixteen octets in square brackets, and a link number
after a percent sign.  A host of four octets is written as four decimal numbers.  A host of sixteen
is written as eight hexadecimal numbers without leading zeros, in lower case, the first of its
longest rows of zeros replaced by `::` if it has at least two; a mapped host as `::ffff:` and the
host it stands for.

A reader takes more: leading zeros up to four digits, either case, any row of zeros (of any length
of at least one) as `::`, and a host of four octets in the place of the last two numbers.
-/

namespace ServerDiscovery

/-! ## 1. Writing -/

namespace Ipv4

/-- The text of a host. -/
def text (ip : Ipv4) : String :=
  String.intercalate "." (ip.octets.map fun b => Numeral.decimal b.toNat)

end Ipv4

namespace Ipv6

/-- The number of zeros at the front. -/
def leadingZeros (segments : List UInt16) : Nat := (segments.takeWhile (· == 0)).length

/-- Where the first of the longest rows of zeros begins, and its length. -/
def longestZeros (segments : List UInt16) : Nat × Nat :=
  (List.range segments.length).foldl
    (fun best i =>
      let run := leadingZeros (segments.drop i)
      if best.2 < run then (i, run) else best)
    (0, 0)

/-- Numbers with colons between them. -/
def colonText (segments : List UInt16) : String :=
  String.intercalate ":" (segments.map fun s => Numeral.hexadecimal s.toNat)

/-- The text of a host. -/
def text (ip : Ipv6) : String :=
  match ip.toIpv4? with
  | some v4 => "::ffff:" ++ v4.text
  | none =>
    let (start, run) := longestZeros ip.segments
    if 1 < run then
      colonText (ip.segments.take start) ++ "::" ++ colonText (ip.segments.drop (start + run))
    else colonText ip.segments

end Ipv6

/-- The text of an address. -/
def SocketAddress.text : SocketAddress → String
  | .v4 ip port => ip.text ++ ":" ++ Numeral.decimal port.toNat
  | .v6 ip port scope =>
    let link := if scope = 0 then "" else "%" ++ Numeral.decimal scope.toNat
    "[" ++ ip.text ++ link ++ "]:" ++ Numeral.decimal port.toNat

/-! ## 2. Reading -/

namespace AddressText

/-- The given character at the front. -/
def char? (c : Char) : List Char → Option (List Char)
  | d :: cs => if c = d then some cs else none
  | [] => none

/-- A number of four octets: one to three digits and no leading zero. -/
def octet? (cs : List Char) : Option (UInt8 × List Char) :=
  (Numeral.read? { maxDigits := some 3, leadingZero := false, limit := 255 } cs).map
    fun (n, rest) => (UInt8.ofNat n, rest)

/-- A host of four octets at the front. -/
def ipv4? (cs : List Char) : Option (Ipv4 × List Char) := do
  let (a, cs) ← octet? cs
  let (b, cs) ← octet? (← char? '.' cs)
  let (c, cs) ← octet? (← char? '.' cs)
  let (d, cs) ← octet? (← char? '.' cs)
  return (⟨a, b, c, d⟩, cs)

/-- One of the eight numbers: one to four digits. -/
def segment? (cs : List Char) : Option (UInt16 × List Char) :=
  (Numeral.read? { hex := true, maxDigits := some 4, limit := 65535 } cs).map
    fun (n, rest) => (UInt16.ofNat n, rest)

/-- Numbers read from the front with colons between them, as far as they go. -/
structure Segments where
  numbers : List UInt16
  /-- Whether a host of four octets gave the last two. -/
  dotted : Bool
  rest : List Char

/-- At most `room` numbers at the front of `cs`, each after a colon unless it is the `first`.  A
host of four octets ends the row and takes the place of two numbers. -/
def segments : (room : Nat) → (first : Bool) → List Char → Segments
  | 0, _, cs => ⟨[], false, cs⟩
  | room + 1, first, cs =>
    match if first then some cs else char? ':' cs with
    | none => ⟨[], false, cs⟩
    | some body =>
      match if room = 0 then none else ipv4? body with
      | some (ip, rest) => ⟨[ofBigEndian16 ip.a ip.b, ofBigEndian16 ip.c ip.d], true, rest⟩
      | none =>
        match segment? body with
        | some (number, rest) =>
          let more := segments room false rest
          ⟨number :: more.numbers, more.dotted, more.rest⟩
        | none => ⟨[], false, cs⟩

/-- A host of sixteen octets at the front: eight numbers, or a row of numbers on each side of `::`
that are at most seven together. -/
def ipv6? (cs : List Char) : Option (Ipv6 × List Char) := do
  let head := segments 8 true cs
  if head.numbers.length = 8 then
    return (← Ipv6.ofSegments? head.numbers, head.rest)
  if head.dotted then none
  let gap ← char? ':' (← char? ':' head.rest)
  let tail := segments (7 - head.numbers.length) true gap
  let zeros := List.replicate (8 - head.numbers.length - tail.numbers.length) 0
  return (← Ipv6.ofSegments? (head.numbers ++ zeros ++ tail.numbers), tail.rest)

/-- A colon and a port: any number of digits. -/
def port? (cs : List Char) : Option (UInt16 × List Char) := do
  let (n, rest) ← Numeral.read? { limit := 65535 } (← char? ':' cs)
  return (UInt16.ofNat n, rest)

/-- A percent sign and a link number, if there is one. -/
def scope (cs : List Char) : UInt32 × List Char :=
  match cs with
  | '%' :: digits =>
    match Numeral.read? { limit := 4294967295 } digits with
    | some (n, rest) => (UInt32.ofNat n, rest)
    | none => (0, cs)
  | _ => (0, cs)

/-- An address with a host of four octets. -/
def socketV4? (cs : List Char) : Option (SocketAddress × List Char) := do
  let (ip, cs) ← ipv4? cs
  let (port, cs) ← port? cs
  return (.v4 ip port, cs)

/-- An address with a host of sixteen octets. -/
def socketV6? (cs : List Char) : Option (SocketAddress × List Char) := do
  let (ip, cs) ← ipv6? (← char? '[' cs)
  let (link, cs) := scope cs
  let (port, cs) ← port? (← char? ']' cs)
  return (.v6 ip port link, cs)

/-- The value that a reader finds, if it reads the whole. -/
def whole? (read : List Char → Option (α × List Char)) (text : String) : Option α :=
  match read text.toList with
  | some (value, []) => some value
  | _ => none

end AddressText

/-- The host that `text` names. -/
def IpAddress.ofText? (text : String) : Option IpAddress :=
  ((AddressText.whole? AddressText.ipv4? text).map .v4).or
    ((AddressText.whole? AddressText.ipv6? text).map .v6)

/-- The address that `text` names. -/
def SocketAddress.ofText? (text : String) : Option SocketAddress :=
  (AddressText.whole? AddressText.socketV4? text).or
    (AddressText.whole? AddressText.socketV6? text)

end ServerDiscovery
