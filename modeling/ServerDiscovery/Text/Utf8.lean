/-! # UTF-8, strict and forgiving

Bytes are read one scalar value at a time.  Where they are no well-formed sequence, the reader
consumes the longest part that some well-formed sequence begins with, and at least one byte, and
reports a defect (`Step.defect`).  Two decoders fold this one step:

* `decode?` is strict: it refuses the first defect;
* `decodeLossy` puts U+FFFD in the place of each defect and reads on.

So they agree wherever the strict one answers (`decodeLossy_eq_of_decode?`).
-/

namespace ServerDiscovery.Utf8

/-- What stands in the place of bytes that encode nothing. -/
def replacement : Char := '\uFFFD'

/-- Whether `b` continues a sequence. -/
def isContinuation (b : UInt8) : Bool := 0x80 ≤ b && b ≤ 0xBF

/-- The range of second bytes that may follow a lead byte of a sequence of three or four bytes.
It is narrower than the continuation bytes where a sequence would be overlong, name a surrogate or
exceed U+10FFFF. -/
def secondRange (lead : UInt8) : UInt8 × UInt8 :=
  if lead == 0xE0 then (0xA0, 0xBF)
  else if lead == 0xED then (0x80, 0x9F)
  else if lead == 0xF0 then (0x90, 0xBF)
  else if lead == 0xF4 then (0x80, 0x8F)
  else (0x80, 0xBF)

/-- Whether `b` may follow `lead`. -/
def isSecond (lead b : UInt8) : Bool := (secondRange lead).1 ≤ b && b ≤ (secondRange lead).2

/-- The payload bits of a continuation byte. -/
def continuationBits (b : UInt8) : Nat := b.toNat % 64

/-- The outcome of reading one scalar value, with the bytes that are left. -/
inductive Step where
  | scalar (c : Char) (rest : List UInt8)
  | defect (rest : List UInt8)

/-- What is left after a step. -/
def Step.rest : Step → List UInt8
  | .scalar _ rest => rest
  | .defect rest => rest

/-- A sequence of two bytes. -/
def stepTwo (lead : UInt8) : List UInt8 → Step
  | b :: rest =>
    if isContinuation b then
      .scalar (Char.ofNat (lead.toNat % 32 * 64 + continuationBits b)) rest
    else .defect (b :: rest)
  | [] => .defect []

/-- A sequence of three bytes. -/
def stepThree (lead : UInt8) : List UInt8 → Step
  | b :: c :: rest =>
    if isSecond lead b then
      if isContinuation c then
        .scalar (Char.ofNat (lead.toNat % 16 * 4096 + continuationBits b * 64 + continuationBits c))
          rest
      else .defect (c :: rest)
    else .defect (b :: c :: rest)
  | [b] => if isSecond lead b then .defect [] else .defect [b]
  | [] => .defect []

/-- A sequence of four bytes. -/
def stepFour (lead : UInt8) : List UInt8 → Step
  | b :: c :: d :: rest =>
    if isSecond lead b then
      if isContinuation c then
        if isContinuation d then
          .scalar (Char.ofNat (lead.toNat % 8 * 262144 + continuationBits b * 4096
            + continuationBits c * 64 + continuationBits d)) rest
        else .defect (d :: rest)
      else .defect (c :: d :: rest)
    else .defect (b :: c :: d :: rest)
  | [b, c] =>
    if isSecond lead b then if isContinuation c then .defect [] else .defect [c]
    else .defect [b, c]
  | [b] => if isSecond lead b then .defect [] else .defect [b]
  | [] => .defect []

/-- The scalar value at the front of `lead :: bytes`. -/
def step (lead : UInt8) (bytes : List UInt8) : Step :=
  if lead < 0x80 then .scalar (Char.ofNat lead.toNat) bytes
  else if lead < 0xC2 then .defect bytes
  else if lead < 0xE0 then stepTwo lead bytes
  else if lead < 0xF0 then stepThree lead bytes
  else if lead < 0xF5 then stepFour lead bytes
  else .defect bytes

theorem length_stepTwo_le (lead : UInt8) (bytes : List UInt8) :
    (stepTwo lead bytes).rest.length ≤ bytes.length := by
  fun_cases stepTwo lead bytes <;> grind [Step.rest]

theorem length_stepThree_le (lead : UInt8) (bytes : List UInt8) :
    (stepThree lead bytes).rest.length ≤ bytes.length := by
  fun_cases stepThree lead bytes <;> grind [Step.rest]

theorem length_stepFour_le (lead : UInt8) (bytes : List UInt8) :
    (stepFour lead bytes).rest.length ≤ bytes.length := by
  fun_cases stepFour lead bytes <;> grind [Step.rest]

/-- A step consumes at least the lead byte. -/
theorem length_step_le (lead : UInt8) (bytes : List UInt8) :
    (step lead bytes).rest.length ≤ bytes.length := by
  unfold step
  repeat' split
  · simp [Step.rest]
  · simp [Step.rest]
  · exact length_stepTwo_le ..
  · exact length_stepThree_le ..
  · exact length_stepFour_le ..
  · simp [Step.rest]

/-- The scalar values of `bytes`, with `replacement` for each defect. -/
def scalars : List UInt8 → List Char
  | [] => []
  | lead :: bytes =>
    match h : step lead bytes with
    | .scalar c rest =>
      have : rest.length ≤ bytes.length := by simpa [h, Step.rest] using length_step_le lead bytes
      c :: scalars rest
    | .defect rest =>
      have : rest.length ≤ bytes.length := by simpa [h, Step.rest] using length_step_le lead bytes
      replacement :: scalars rest
termination_by bytes => bytes.length
decreasing_by all_goals grind

/-- The scalar values of `bytes`; `none` if there is a defect. -/
def scalars? : List UInt8 → Option (List Char)
  | [] => some []
  | lead :: bytes =>
    match h : step lead bytes with
    | .scalar c rest =>
      have : rest.length ≤ bytes.length := by simpa [h, Step.rest] using length_step_le lead bytes
      (scalars? rest).map (c :: ·)
    | .defect _ => none
termination_by bytes => bytes.length
decreasing_by simp_wf; omega

/-- The text of `bytes`, with U+FFFD for each defect. -/
def decodeLossy (bytes : List UInt8) : String := String.ofList (scalars bytes)

/-- The text of `bytes`; `none` if they are not well formed. -/
def decode? (bytes : List UInt8) : Option String := (scalars? bytes).map String.ofList

/-- The bytes of `text`. -/
def encode (text : String) : List UInt8 := text.toList.flatMap String.utf8EncodeChar

/-- The forgiving decoder answers what the strict one answers. -/
theorem scalars_eq_of_scalars? {bytes : List UInt8} {cs : List Char}
    (h : scalars? bytes = some cs) : scalars bytes = cs := by
  fun_induction scalars? bytes generalizing cs with
  | case1 => simpa [scalars] using h
  | case2 lead bytes c rest hs _ ih =>
    obtain ⟨ds, hd, rfl⟩ := Option.map_eq_some_iff.1 h
    rw [scalars]
    split <;> simp_all
  | case3 => simp at h

theorem decodeLossy_eq_of_decode? {bytes : List UInt8} {text : String}
    (h : decode? bytes = some text) : decodeLossy bytes = text := by
  obtain ⟨cs, hc, rfl⟩ := Option.map_eq_some_iff.1 h
  rw [decodeLossy, scalars_eq_of_scalars? hc]

end ServerDiscovery.Utf8
