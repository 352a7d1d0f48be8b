import ServerDiscovery.Proofs.Text.Replacement
import ServerDiscovery.Proofs.Wire.Text
import ServerDiscovery.Wire.FieldBuffer

/-! # Reading a text from any bytes

Peers send what they like, so a reader of texts has to make something of any bytes.  Only the zero
bytes decide whether it does: it fails where there is none, with one error if there are no bytes at
all and with another if there are.  The buffer stays as it was then.

Otherwise it takes the bytes up to the first zero byte, and the text is that of the bytes in front
of it, mended where they are no UTF-8.  However bad they were, the text is as good as any that was
written: it does not hold U+0000, and once it is written it is read back as it is.
-/

namespace ServerDiscovery.Wire

variable {bytes before after : Bytes} {text : String} {e : FieldError} {b : FieldBuffer}

/-! ## 1. Failures -/

theorem splitAtZero_eq_none_iff : splitAtZero bytes = none ↔ 0 ∉ bytes := by
  constructor
  · intro h hzero
    obtain ⟨before, after, rfl, hbefore⟩ := List.eq_append_cons_of_mem hzero
    rw [splitAtZero_append hbefore after] at h
    cases h
  · intro h
    rcases hsplit : splitAtZero bytes with _ | ⟨before, after⟩
    · rfl
    · refine absurd ?_ h
      rw [append_of_splitAtZero hsplit]
      exact List.mem_append_right before List.mem_cons_self

/-- A reader of texts fails if there is no zero byte, and says whether there is any byte. -/
theorem unpackText_eq_error_iff : unpackText bytes = .error e ↔
    0 ∉ bytes ∧ e = if bytes = [] then .noData else .unterminatedText := by
  rw [← splitAtZero_eq_none_iff]
  rcases bytes with _ | ⟨b, bytes⟩
  · simp [unpackText, splitAtZero, eq_comm]
  · rcases hsplit : splitAtZero (b :: bytes) with _ | ⟨before, after⟩
    · simp [unpackText, hsplit, eq_comm]
    · simp [unpackText, hsplit]

/-! ## 2. What is read -/

/-- A text is read back where it was written, whatever is in front of it and behind it. -/
theorem FieldBuffer.popText_drop_pushText (h : NulFree text) (held : FieldBuffer) (more : Bytes) :
    (⟨((held.pushText text).bytes ++ more).drop held.size⟩ : FieldBuffer).popText =
      (.ok text, ⟨more⟩) := by
  have hbytes : ((held.pushText text).bytes ++ more).drop held.size = packText text ++ more := by
    rw [pushText, size, List.append_assoc, List.drop_left]
  rw [hbytes]
  exact popWith_eq_ok_iff.mpr (unpackText_packText_append h more)

/-- The text is what is read off the bytes in front of a zero byte. -/
structure IsReading (before : Bytes) (text : String) : Prop where
  nulFree : NulFree text
  mends : ∀ cs, Utf8.Mends before cs ↔ cs = text.toList
  /-- UTF-8 is read as it is. -/
  of_encode : ∀ clean, before = Utf8.encode clean → text = clean
  /-- What was read is written and read again without a change. -/
  steady : ∀ (held : FieldBuffer) (more : Bytes),
    (⟨((held.pushText text).bytes ++ more).drop held.size⟩ : FieldBuffer).popText =
      (.ok text, ⟨more⟩)

theorem isReading_decodeLossy (h : 0 ∉ before) : IsReading before (Utf8.decodeLossy before) := by
  have hnulFree : NulFree (Utf8.decodeLossy before) := by
    rw [← textValue_concat]
    exact nulFree_textValue ⟨before, rfl, h⟩
  refine ⟨hnulFree, fun cs => ?_, ?_, FieldBuffer.popText_drop_pushText hnulFree⟩
  · rw [Utf8.decodeLossy, String.toList_ofList, ← Utf8.scalars_eq_iff, eq_comm]
  · rintro clean rfl
    exact Utf8.decodeLossy_encode clean

/-- **Any bytes are read as a text, or refused for what they lack.**  Without a byte there is
nothing to read, and without a zero byte no text ends; both leave the buffer as it was.  All other
bytes are read up to the first zero byte, as a text that can be written and read again. -/
theorem FieldBuffer.popText_any (b : FieldBuffer) :
    (b.popText.1 = .error .noData ↔ b.bytes = []) ∧
    (b.popText.1 = .error .unterminatedText ↔ b.bytes ≠ [] ∧ 0 ∉ b.bytes) ∧
    (∀ e, b.popText.1 = .error e → b.popText.2 = b) ∧
    (0 ∈ b.bytes → ∃ before after text, b.bytes = before ++ 0 :: after ∧ 0 ∉ before ∧
      b.popText = (.ok text, ⟨after⟩) ∧ IsReading before text) := by
  refine ⟨?_, ?_, fun e he => ?_, fun hzero => ?_⟩
  · rw [popText, popWith_fst_eq_error_iff, unpackText_eq_error_iff]
    by_cases hb : b.bytes = []
    · simp [hb]
    · simp [hb]
  · rw [popText, popWith_fst_eq_error_iff, unpackText_eq_error_iff]
    by_cases hb : b.bytes = []
    · simp [hb]
    · simp [hb]
  · rw [popText, popWith_of_error (popWith_fst_eq_error_iff.mp he)]
  · obtain ⟨before, after, hbytes, hbefore⟩ := List.eq_append_cons_of_mem hzero
    refine ⟨before, after, _, hbytes, hbefore, popWith_eq_ok_iff.mpr ?_,
      isReading_decodeLossy hbefore⟩
    refine unpackText_eq_ok_iff.mpr ⟨before ++ [0], ?_, ⟨before, rfl, hbefore⟩, ?_⟩
    · rw [hbytes, List.append_cons]
    · rw [textValue_concat]

/-- An overlong zero, half of a surrogate pair and a sequence that the terminator cuts off; then
another text. -/
def mangled : FieldBuffer := ⟨[0xC0, 0x80, 0xED, 0xA0, 0x80, 0xE2, 0x82, 0, 0x61]⟩

theorem FieldBuffer.popText_any_mangled :
    0 ∈ mangled.bytes ∧ ∃ before text, mangled.bytes = before ++ [0, 0x61] ∧
      mangled.popText = (.ok text, ⟨[0x61]⟩) ∧ IsReading before text ∧
      text.toList = List.replicate 6 Utf8.replacement := by
  have hzero : 0 ∈ mangled.bytes := by decide
  obtain ⟨-, -, -, hread⟩ := FieldBuffer.popText_any mangled
  obtain ⟨before, after, text, hbytes, hbefore, hpop, hreading⟩ := hread hzero
  have hsplit := splitAtZero_append hbefore after
  rw [← hbytes] at hsplit
  cases hsplit
  have hmends := Utf8.mends_scalars [0xC0, 0x80, 0xED, 0xA0, 0x80, 0xE2, 0x82]
  have hscalars : Utf8.scalars [0xC0, 0x80, 0xED, 0xA0, 0x80, 0xE2, 0x82] =
      List.replicate 6 Utf8.replacement := by
    decide +kernel
  rw [hscalars] at hmends
  exact ⟨hzero, _, text, rfl, hpop, hreading, ((hreading.mends _).mp hmends).symm⟩

end ServerDiscovery.Wire
