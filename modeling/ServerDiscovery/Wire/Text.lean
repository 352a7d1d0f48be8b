import ServerDiscovery.Text.Utf8
import ServerDiscovery.Wire.Integer

/-! # Terminated texts

A text is written as its UTF-8 bytes and a zero byte.  Nothing marks its length, so a text that
holds U+0000 is read back in pieces.  What peers send is not always clean: the bytes before the
terminator are decoded forgivingly.
-/

namespace ServerDiscovery.Wire

/-- The bytes of `text`. -/
def packText (text : String) : Bytes := Utf8.encode text ++ [0]

/-- The bytes before the first zero byte, and those after it; `none` if there is none. -/
def splitAtZero : Bytes → Option (Bytes × Bytes)
  | [] => none
  | b :: bytes =>
    if b = 0 then some ([], bytes)
    else match splitAtZero bytes with
      | some (before, after) => some (b :: before, after)
      | none => none

/-- The text at the front of `bytes`, and what is left. -/
def unpackText (bytes : Bytes) : Except FieldError (String × Bytes) :=
  if bytes.isEmpty then .error .noData
  else match splitAtZero bytes with
    | some (before, after) => .ok (Utf8.decodeLossy before, after)
    | none => .error .unterminatedText

/-- The two parts and the zero byte between them are the whole. -/
theorem append_of_splitAtZero {bytes before after : Bytes}
    (h : splitAtZero bytes = some (before, after)) : bytes = before ++ 0 :: after := by
  fun_induction splitAtZero bytes generalizing before after with
  | case1 => simp at h
  | case2 => simp_all
  | case3 b bytes hb x y hxy ih =>
    obtain ⟨rfl, rfl⟩ : b :: x = before ∧ y = after := by simpa using h
    simp [ih hxy]
  | case4 => simp at h

/-- A successful read consumes at least one byte. -/
theorem length_of_unpackText {bytes rest : Bytes} {text : String}
    (h : unpackText bytes = .ok (text, rest)) : rest.length < bytes.length := by
  unfold unpackText at h
  split at h
  · simp at h
  · split at h
    · rename_i before after hs
      have := congrArg List.length (append_of_splitAtZero hs)
      simp_all
      omega
    · simp at h

end ServerDiscovery.Wire
