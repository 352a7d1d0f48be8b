import ServerDiscovery.Proofs.Text.Utf8
import ServerDiscovery.Wire.Text

/-! # Terminated texts are read back

A zero byte ends a text, and no other byte of a text is zero unless the text holds U+0000.  So a
text without U+0000 is read back in front of any bytes (`unpackText_packText_append`), and one that
holds it is written like the pieces between (`packText_eq_flatMap_pieces`).

What a reader returns never holds U+0000, whatever the bytes were (`nulFree_textValue`).  So it can
be written and read again.
-/

namespace ServerDiscovery.Wire

variable {bytes taken before after rest : Bytes} {text : String}

/-! ## 1. The first zero byte -/

theorem splitAtZero_append (h : 0 ∉ before) (after : Bytes) :
    splitAtZero (before ++ 0 :: after) = some (before, after) := by
  induction before with
  | nil => rfl
  | cons b before ih =>
    rw [List.mem_cons, not_or] at h
    rw [List.cons_append, splitAtZero, if_neg fun hb => h.1 hb.symm, ih h.2]

theorem zero_not_mem_of_splitAtZero (h : splitAtZero bytes = some (before, after)) :
    0 ∉ before := by
  fun_induction splitAtZero bytes generalizing before after with
  | case1 => cases h
  | case2 =>
    cases h
    exact List.not_mem_nil
  | case3 b bytes hb x y hxy ih =>
    cases h
    rw [List.mem_cons, not_or]
    exact ⟨fun h => hb h.symm, ih hxy⟩
  | case4 => cases h

theorem splitAtZero_eq_some_iff :
    splitAtZero bytes = some (before, after) ↔ bytes = before ++ 0 :: after ∧ 0 ∉ before := by
  constructor
  · intro h
    exact ⟨append_of_splitAtZero h, zero_not_mem_of_splitAtZero h⟩
  · rintro ⟨rfl, h⟩
    exact splitAtZero_append h after

/-! ## 2. What a reader takes -/

/-- The bytes of one text: the last is zero, and no other. -/
def IsText (bytes : Bytes) : Prop := ∃ before, bytes = before ++ [0] ∧ 0 ∉ before

/-- The text in the bytes of one. -/
def textValue (bytes : Bytes) : String := Utf8.decodeLossy bytes.dropLast

theorem textValue_concat (before : Bytes) :
    textValue (before ++ [0]) = Utf8.decodeLossy before := by
  rw [textValue, List.dropLast_concat]

/-- **A reader takes the bytes of one text from the front**, and says which. -/
theorem unpackText_eq_ok_iff :
    unpackText bytes = .ok (text, rest) ↔
      ∃ taken, bytes = taken ++ rest ∧ IsText taken ∧ text = textValue taken := by
  constructor
  · intro h
    unfold unpackText at h
    split at h
    · cases h
    · split at h
      · next before after hsplit =>
        cases h
        obtain ⟨rfl, hzero⟩ := splitAtZero_eq_some_iff.mp hsplit
        exact ⟨before ++ [0], List.append_cons .., ⟨before, rfl, hzero⟩,
          (textValue_concat before).symm⟩
      · cases h
  · rintro ⟨_, rfl, ⟨before, rfl, hzero⟩, rfl⟩
    rw [List.append_assoc, List.singleton_append, textValue_concat, unpackText, if_neg (by simp),
      splitAtZero_append hzero]

/-! ## 3. What a writer makes -/

/-- The text does not hold U+0000. -/
def NulFree (text : String) : Prop := '\x00' ∉ text.toList

instance (text : String) : Decidable (NulFree text) :=
  inferInstanceAs (Decidable ('\x00' ∉ text.toList))

/-- The text that a reader returns does not hold U+0000. -/
theorem nulFree_textValue (h : IsText bytes) : NulFree (textValue bytes) := by
  obtain ⟨before, rfl, hzero⟩ := h
  rw [textValue_concat, NulFree, Utf8.decodeLossy, String.toList_ofList]
  exact Utf8.nul_not_mem_scalars hzero

theorem isText_packText (h : NulFree text) : IsText (packText text) :=
  ⟨Utf8.encode text, rfl, fun hzero => h (Utf8.zero_mem_encode_iff.mp hzero)⟩

theorem textValue_packText (text : String) : textValue (packText text) = text := by
  rw [packText, textValue_concat, Utf8.decodeLossy_encode]

/-- **What is written is read back**, whatever comes behind it. -/
theorem unpackText_packText_append (h : NulFree text) (rest : Bytes) :
    unpackText (packText text ++ rest) = .ok (text, rest) :=
  unpackText_eq_ok_iff.mpr
    ⟨packText text, rfl, isText_packText h, (textValue_packText text).symm⟩

/-! ## 4. Pieces -/

/-- The pieces of `text` between its U+0000. -/
def pieces (text : String) : List String := (text.toList.splitOn '\x00').map String.ofList

theorem pieces_of_nulFree (h : NulFree text) : pieces text = [text] := by
  rw [pieces, List.splitOn_eq_singleton h, List.map_singleton, String.ofList_toList]

/-- One more character in front ends a piece before the first, or joins the first piece. -/
theorem exists_splitOn_nul_cons (c : Char) (cs : List Char) :
    ∃ first others, cs.splitOn '\x00' = first :: others ∧
      (c :: cs).splitOn '\x00' =
        if c = '\x00' then [] :: first :: others else (c :: first) :: others := by
  obtain ⟨first, others, hsplit⟩ := List.exists_cons_of_ne_nil (List.splitOn_ne_nil '\x00' cs)
  refine ⟨first, others, hsplit, ?_⟩
  rw [List.splitOn_cons_eq_if_modifyHead, hsplit, List.modifyHead_cons]
  simp only [beq_iff_eq]

theorem nul_not_mem_of_mem_splitOn {cs piece : List Char} (h : piece ∈ cs.splitOn '\x00') :
    '\x00' ∉ piece := by
  induction cs generalizing piece with
  | nil =>
    rw [List.splitOn_nil, List.mem_singleton] at h
    rw [h]
    exact List.not_mem_nil
  | cons c cs ih =>
    obtain ⟨first, others, hsplit, hcons⟩ := exists_splitOn_nul_cons c cs
    rw [hsplit] at ih
    rw [hcons] at h
    split at h
    · rcases List.mem_cons.mp h with rfl | h
      · exact List.not_mem_nil
      · exact ih h
    · next hc =>
      rcases List.mem_cons.mp h with rfl | h
      · rw [List.mem_cons, not_or]
        exact ⟨fun heq => hc heq.symm, ih List.mem_cons_self⟩
      · exact ih (List.mem_cons_of_mem first h)

theorem nulFree_of_mem_pieces {piece : String} (h : piece ∈ pieces text) : NulFree piece := by
  obtain ⟨cs, hcs, rfl⟩ := List.mem_map.mp h
  rw [NulFree, String.toList_ofList]
  exact nul_not_mem_of_mem_splitOn hcs

/-- The byte that U+0000 is written as is the one that ends a text. -/
theorem flatMap_splitOn_nul (cs : List Char) :
    (cs.splitOn '\x00').flatMap (fun piece => piece.flatMap String.utf8EncodeChar ++ [0]) =
      cs.flatMap String.utf8EncodeChar ++ [0] := by
  induction cs with
  | nil => rfl
  | cons c cs ih =>
    obtain ⟨first, others, hsplit, hcons⟩ := exists_splitOn_nul_cons c cs
    rw [hsplit] at ih
    rw [hcons]
    split
    · next hc =>
      have hzero : String.utf8EncodeChar '\x00' = [0] := by decide
      rw [List.flatMap_cons, ih, List.flatMap_cons, hc, hzero]
      rfl
    · rw [List.flatMap_cons] at ih ⊢
      rw [List.flatMap_cons, List.flatMap_cons,
        List.append_assoc _ (cs.flatMap String.utf8EncodeChar) [0], ← ih]
      simp only [List.append_assoc]

/-- A text is written like its pieces. -/
theorem packText_eq_flatMap_pieces (text : String) :
    packText text = (pieces text).flatMap packText := by
  have hpieces : (pieces text).flatMap packText = (text.toList.splitOn '\x00').flatMap
      fun piece => piece.flatMap String.utf8EncodeChar ++ [0] := by
    rw [pieces, List.flatMap_map]
    simp only [packText, Utf8.encode, String.toList_ofList]
  rw [hpieces, flatMap_splitOn_nul]
  rfl

end ServerDiscovery.Wire
