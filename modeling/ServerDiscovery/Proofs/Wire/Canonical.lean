import ServerDiscovery.Proofs.Wire.Scratch
import ServerDiscovery.Wire.FieldBuffer

/-! # The shortest form of an integer

A reader takes more than a writer makes, so many byte strings have one value.  What a writer makes
is the shortest of them, and `Canonical` says which they are: reading and writing again gives the
same bytes exactly for these (`FieldBuffer.pushInteger_shortest`).

The last byte decides.  If it carries no bit, a shorter form has the same value.  If it is the fifth
and carries a bit that a magnitude has no room for, the value wraps: no writer makes these bytes,
but no form is longer.
-/

namespace ServerDiscovery.Wire

variable {n : Nat} {v : Int32} {b last : UInt8} {bytes taken before : Bytes} {negative : Bool}

/-! ## 1. Groups and their last byte -/

theorem groupsValue_append (before after : Bytes) :
    groupsValue (before ++ after) =
      groupsValue before + 128 ^ before.length * groupsValue after := by
  induction before with
  | nil => simp [groupsValue_nil]
  | cons b before ih =>
    rw [List.cons_append, groupsValue_cons, groupsValue_cons, ih, List.length_cons, Nat.pow_succ]
    rw [Nat.mul_add, ← Nat.mul_assoc, Nat.mul_comm 128 (128 ^ before.length), Nat.add_assoc]

theorem groupsValue_lt (groups : Bytes) : groupsValue groups < 128 ^ groups.length := by
  induction groups with
  | nil => decide
  | cons b groups ih =>
    rw [groupsValue_cons, List.length_cons, Nat.pow_succ]
    omega

theorem groupsValue_concat (before : Bytes) (last : UInt8) :
    groupsValue (before ++ [last]) =
      groupsValue before + 128 ^ before.length * (last.toNat % 128) := by
  rw [groupsValue_append, groupsValue_cons, groupsValue_nil, Nat.mul_zero, Nat.add_zero]

theorem groupsValue_concat_pos (hbit : last.toNat % 128 ≠ 0) :
    0 < groupsValue (before ++ [last]) := by
  rw [groupsValue_concat]
  exact Nat.add_pos_right _ (Nat.mul_pos (Nat.pow_pos (by decide)) (Nat.pos_of_ne_zero hbit))

/-- Groups are written again as they are if their last byte carries a bit. -/
theorem packGroups_groupsValue_concat (hbefore : ∀ b ∈ before, isContinued b = true)
    (hlast : isContinued last = false) (hbit : last.toNat % 128 ≠ 0) :
    packGroups (groupsValue (before ++ [last])) = before ++ [last] := by
  rw [isContinued_eq_false_iff] at hlast
  induction before with
  | nil =>
    have hvalue : groupsValue ([] ++ [last]) = last.toNat := by
      rw [List.nil_append, groupsValue_cons, groupsValue_nil]
      omega
    rw [hvalue, packGroups, if_pos hlast, UInt8.ofNat_toNat, List.nil_append]
  | cons b before ih =>
    have hb : 128 ≤ b.toNat := isContinued_iff.mp (hbefore b List.mem_cons_self)
    have hlt := b.toNat_lt
    have hpos : 0 < groupsValue (before ++ [last]) := groupsValue_concat_pos hbit
    have hrest := ih fun c hc => hbefore c (List.mem_cons_of_mem b hc)
    have hdiv : groupsValue (b :: (before ++ [last])) / 128 = groupsValue (before ++ [last]) := by
      rw [groupsValue_cons]
      omega
    have hbyte : groupsValue (b :: (before ++ [last])) % 128 + 128 = b.toNat := by
      rw [groupsValue_cons]
      omega
    rw [List.cons_append, packGroups, if_neg (by rw [groupsValue_cons]; omega), hbyte, hdiv, hrest,
      UInt8.ofNat_toNat]

/-- The last byte of a number that is not zero carries a bit. -/
theorem exists_concat_packGroups (n : Nat) :
    ∃ before last, packGroups n = before ++ [last] ∧ last.toNat < 128 ∧
      (n ≠ 0 → last.toNat ≠ 0) := by
  fun_induction packGroups n with
  | case1 n h =>
    have hlast : (UInt8.ofNat n).toNat = n := by
      rw [UInt8.toNat_ofNat']
      omega
    exact ⟨[], UInt8.ofNat n, rfl, by rwa [hlast], by rw [hlast]; exact id⟩
  | case2 n h ih =>
    obtain ⟨before, last, heq, hlast, hbit⟩ := ih
    refine ⟨UInt8.ofNat (n % 128 + 128) :: before, last, by rw [heq]; rfl, hlast,
      fun _ => hbit ?_⟩
    omega

/-! ## 2. The forms of an integer -/

theorem length_cons_concat (b last : UInt8) (before : Bytes) :
    (b :: (before ++ [last])).length = before.length + 2 := by
  rw [List.length_cons, List.length_append, List.length_singleton]

theorem getLast?_cons_concat (b last : UInt8) (before : Bytes) :
    (b :: (before ++ [last])).getLast? = some last := by
  rw [← List.cons_append, List.getLast?_concat]

theorem canonical_singleton (b : UInt8) : Canonical [b] := .inl rfl

/-- A longer form is canonical if its last byte carries a bit, but none that the value drops. -/
theorem canonical_cons_concat :
    Canonical (b :: (before ++ [last])) ↔
      last.toNat % 128 ≠ 0 ∧ (before.length = 3 → last.toNat ≤ 15) := by
  have hlength := length_cons_concat b last before
  have hlast := getLast?_cons_concat b last before
  unfold Canonical
  rw [hlength, hlast]
  constructor
  · rintro (h | ⟨other, hother, hbit, hroom⟩)
    · omega
    · cases hother
      exact ⟨hbit, fun h => hroom (by omega)⟩
  · rintro ⟨hbit, hroom⟩
    exact .inr ⟨last, rfl, hbit, fun h => hroom (by omega)⟩

/-- The bytes of an integer are one that is not continued, or a continued one and groups. -/
theorem isInteger_cons_concat :
    IsInteger (b :: (before ++ [last])) ↔
      before.length ≤ 3 ∧ isContinued b = true ∧ (∀ c ∈ before, isContinued c = true) ∧
        (before.length < 3 → isContinued last = false) := by
  have hlength := length_cons_concat b last before
  have hdrop : (b :: (before ++ [last])).dropLast = b :: before := by
    rw [← List.cons_append, List.dropLast_concat]
  have hlast := getLast?_cons_concat b last before
  constructor
  · intro h
    have hle := h.length_le
    have hcontinued := h.continued
    rw [hdrop] at hcontinued
    refine ⟨?_, hcontinued b List.mem_cons_self,
      fun c hc => hcontinued c (List.mem_cons_of_mem b hc), fun hlt => ?_⟩
    · rw [hlength] at hle
      exact Nat.le_of_add_le_add_right hle
    · obtain ⟨other, hother, hended⟩ := h.ended (by rw [hlength]; exact Nat.add_lt_add_right hlt 2)
      rw [hlast] at hother
      cases hother
      exact hended
  · rintro ⟨hle, hb, hbefore, hended⟩
    refine ⟨?_, ?_, fun hlt => ⟨last, hlast, hended ?_⟩⟩
    · rw [hlength]
      exact Nat.add_le_add_right hle 2
    · rw [hdrop]
      exact List.forall_mem_cons.mpr ⟨hb, hbefore⟩
    · rw [hlength] at hlt
      exact Nat.lt_of_add_lt_add_right hlt

theorem isInteger_singleton : IsInteger [b] ↔ isContinued b = false := by
  constructor
  · intro h
    by_cases hb : isContinued b = true
    · exact absurd ((delimited_cons_of_continued hb).mp h) not_delimited_nil
    · exact Bool.eq_false_iff.mpr hb
  · intro hb
    exact (delimited_cons_of_ended hb).mpr rfl

/-! ## 3. Writing -/

/-- What a writer makes is canonical. -/
theorem canonical_packInteger (v : Int32) : Canonical (packInteger v) := by
  have hlt := magnitude_lt v
  unfold packInteger
  split
  · exact canonical_singleton _
  · next hmany =>
    obtain ⟨before, last, heq, hlast, hbit⟩ := exists_concat_packGroups (magnitude v / 64)
    rw [heq, canonical_cons_concat, Nat.mod_eq_of_lt hlast]
    refine ⟨hbit (by omega), fun hfive => ?_⟩
    -- the fifth byte carries the bits from 27 on, and a magnitude has 31
    have hvalue : groupsValue before + 128 ^ 3 * (last.toNat % 128) = magnitude v / 64 := by
      rw [← hfive, ← groupsValue_concat, ← heq, groupsValue_packGroups]
    omega

/-- No form of a number is longer than that of a larger one. -/
theorem length_packInteger_le {k : Nat} (h : magnitude v < 64 * 128 ^ k) :
    (packInteger v).length ≤ k + 1 := by
  unfold packInteger
  split
  · exact Nat.succ_le_succ (Nat.zero_le k)
  · next hmany =>
    rcases k with _ | k
    · omega
    · have hgroups : magnitude v / 64 < 128 ^ (k + 1) := by
        rw [Nat.div_lt_iff_lt_mul (by decide)]
        omega
      exact Nat.succ_le_succ (delimited_packGroups hgroups).length_le

/-- The bytes of a number with a given sign and magnitude. -/
theorem packInteger_ofMagnitude (h : n < 2 ^ 31) :
    packInteger (ofMagnitude negative n) =
      if n < 64 then [UInt8.ofNat ((if negative then 64 else 0) + n)]
      else UInt8.ofNat (128 + (if negative then 64 else 0) + n % 64) :: packGroups (n / 64) := by
  have hsign : signBit (ofMagnitude negative n) = if negative then 64 else 0 := by
    simp only [signBit, ofMagnitude_lt_zero_iff h]
  rw [packInteger, hsign, magnitude_ofMagnitude h]

/-- The first byte of a longer form, from its parts. -/
theorem sign_add_low (b : UInt8) :
    (if isNegative b then 64 else 0) + b.toNat % 64 = b.toNat % 128 := by
  by_cases h : isNegative b = true
  · have := of_decide_eq_true h
    rw [if_pos h]
    omega
  · have := of_decide_eq_false (Bool.eq_false_iff.mpr h)
    rw [if_neg h]
    omega

/-! ## 4. Writing what was read -/

/-- No form of a value is shorter than the one that a writer makes. -/
theorem length_packInteger_integerValue_le (h : IsInteger taken) :
    (packInteger (integerValue taken)).length ≤ taken.length := by
  rcases taken with _ | ⟨b, groups⟩
  · exact absurd h not_delimited_nil
  · refine length_packInteger_le ?_
    have hvalue := magnitude_ofMagnitude_le (isNegative b) (b.toNat % 64 + 64 * groupsValue groups)
    have hgroups := groupsValue_lt groups
    have hlow := Nat.mod_lt b.toNat (by decide : 0 < 64)
    exact Nat.lt_of_le_of_lt hvalue (by omega)

/-- The last byte of a canonical form is not continued, even if it is the fifth. -/
theorem isContinued_last_of_canonical (h : IsInteger (b :: (before ++ [last])))
    (hcanonical : Canonical (b :: (before ++ [last]))) : isContinued last = false := by
  obtain ⟨hlength, -, -, hended⟩ := isInteger_cons_concat.mp h
  rcases Nat.lt_or_eq_of_le hlength with hlt | hfive
  · exact hended hlt
  · have hroom := (canonical_cons_concat.mp hcanonical).2 hfive
    rw [isContinued_eq_false_iff]
    omega

/-- What stands behind the first byte of a canonical form fits a magnitude. -/
theorem groupsValue_concat_lt (hlength : before.length ≤ 3)
    (hroom : before.length = 3 → last.toNat ≤ 15) : groupsValue (before ++ [last]) < 2 ^ 25 := by
  have hlow := groupsValue_lt before
  rw [groupsValue_concat]
  rcases Nat.lt_or_eq_of_le hlength with hlt | hfive
  · have hle : 128 ^ before.length ≤ 128 ^ 2 :=
      Nat.pow_le_pow_right (by decide) (Nat.le_of_lt_succ hlt)
    have hdigit : last.toNat % 128 ≤ 127 := by omega
    have := Nat.mul_le_mul hle hdigit
    omega
  · have := hroom hfive
    rw [hfive] at hlow ⊢
    omega

/-- A canonical form is written again as it is. -/
theorem packInteger_integerValue (h : IsInteger taken) (hcanonical : Canonical taken) :
    packInteger (integerValue taken) = taken := by
  rcases taken with _ | ⟨b, groups⟩
  · exact absurd h not_delimited_nil
  rcases List.eq_nil_or_concat groups with rfl | ⟨before, last, hconcat⟩
  · have hb := isContinued_eq_false_iff.mp (isInteger_singleton.mp h)
    have hlow : b.toNat % 64 + 64 * groupsValue [] < 64 := Nat.mod_lt _ (by decide)
    rw [integerValue, packInteger_ofMagnitude (by omega), if_pos hlow, groupsValue_nil,
      Nat.mul_zero, Nat.add_zero, sign_add_low, Nat.mod_eq_of_lt hb, UInt8.ofNat_toNat]
  · rw [List.concat_eq_append] at hconcat
    subst hconcat
    obtain ⟨hlength, hb, hbefore, hended⟩ := isInteger_cons_concat.mp h
    obtain ⟨hbit, hroom⟩ := canonical_cons_concat.mp hcanonical
    have hlast := isContinued_last_of_canonical h hcanonical
    have hpos : 0 < groupsValue (before ++ [last]) := groupsValue_concat_pos hbit
    have hbound := groupsValue_concat_lt hlength hroom
    have hgroups := packGroups_groupsValue_concat hbefore hlast hbit
    have hfirst := isContinued_iff.mp hb
    have hlt := b.toNat_lt
    rw [integerValue, packInteger_ofMagnitude (by omega), if_neg (by omega),
      Nat.add_mul_mod_self_left, Nat.mod_mod, Nat.add_assoc, sign_add_low,
      Nat.add_mul_div_left _ _ (by decide : 0 < 64), Nat.div_eq_of_lt (Nat.mod_lt _ (by decide)),
      Nat.zero_add, hgroups]
    rw [show 128 + b.toNat % 128 = b.toNat by omega, UInt8.ofNat_toNat]

/-- **Reading and writing again gives the same bytes exactly for canonical ones.** -/
theorem packInteger_integerValue_eq_iff (h : IsInteger taken) :
    packInteger (integerValue taken) = taken ↔ Canonical taken := by
  constructor
  · intro heq
    rw [← heq]
    exact canonical_packInteger _
  · exact packInteger_integerValue h

/-! ## 5. Complements -/

/-- The bit of the sign is changed alone. -/
theorem ofNat_signBit_not (v : Int32) {flag low : Nat} (hflag : flag = 0 ∨ flag = 128)
    (hlow : low < 64) : UInt8.ofNat (flag + signBit (~~~v) + low) =
      UInt8.ofNat (flag + signBit v + low) ^^^ 0x40 := by
  have hset : UInt8.ofNat (flag + 64 + low) = UInt8.ofNat (flag + 0 + low) ^^^ 0x40 := by
    revert low
    rcases hflag with rfl | rfl <;> decide
  by_cases h : v < 0
  · have hnot : ¬ ~~~v < 0 := fun hlt => not_lt_zero_iff.mp hlt h
    rw [signBit, signBit, if_pos h, if_neg hnot, hset, UInt8.xor_assoc, UInt8.xor_self,
      UInt8.xor_zero]
  · rw [signBit, signBit, if_neg h, if_pos (not_lt_zero_iff.mpr h), hset]

/-- A number and its complement differ in the bit of the sign and nowhere else. -/
theorem packInteger_not (v : Int32) :
    packInteger (~~~v) = (packInteger v).modifyHead (· ^^^ 0x40) := by
  have hmod : magnitude v % 64 < 64 := Nat.mod_lt _ (by decide)
  rw [packInteger, packInteger, magnitude_not]
  split
  · next hone =>
    have hbyte := ofNat_signBit_not v (.inl rfl) hone
    rw [Nat.zero_add, Nat.zero_add] at hbyte
    rw [List.modifyHead_cons, hbyte]
  · rw [List.modifyHead_cons, ofNat_signBit_not v (.inr rfl) hmod]

/-! ## 6. Buffers -/

/-- **The shortest form.**  Writing appends one to five bytes, which fit a scratch of five; a number
and its complement differ in the bit of the sign alone; and when a number is read, no shorter bytes
could have stood in the place of what a writer makes of it, which is what was read if that is
canonical, and only then. -/
theorem FieldBuffer.pushInteger_shortest :
    (∀ (b : FieldBuffer) (v : Int32), (b.pushInteger v).bytes = b.bytes ++ packInteger v ∧
      1 ≤ (packInteger v).length ∧ (packInteger v).length ≤ maxIntegerSize ∧
      packInScratch? v = some (packInteger v)) ∧
    (∀ v : Int32, packInteger (~~~v) = (packInteger v).modifyHead (· ^^^ 0x40)) ∧
    ∀ (b left : FieldBuffer) (v : Int32), b.popInteger = (.ok v, left) →
      ∃ taken, b.bytes = taken ++ left.bytes ∧ (packInteger v).length ≤ taken.length ∧
        (packInteger v = taken ↔ Canonical taken) := by
  refine ⟨fun b v => ⟨rfl, ?_, ?_, packInScratch?_eq v⟩, packInteger_not, fun b left v h => ?_⟩
  · exact List.length_pos_iff.mpr (packInteger_ne_nil v)
  · exact (isInteger_packInteger v).length_le
  · obtain ⟨taken, hbytes, htaken, rfl⟩ := unpackInteger_eq_ok_iff.mp (popWith_eq_ok_iff.mp h)
    exact ⟨taken, hbytes, length_packInteger_integerValue_le htaken,
      packInteger_integerValue_eq_iff htaken⟩

/-- A fifth byte with bits that no magnitude has room for: the value wraps to -1, whose form has one
byte.  What follows is left. -/
theorem FieldBuffer.pushInteger_shortest_wrapped :
    (⟨[0xBF, 0xFF, 0xFF, 0xFF, 0xFF, 0x07]⟩ : FieldBuffer).popInteger = (.ok (-1), ⟨[0x07]⟩) ∧
      ∃ taken, [0xBF, 0xFF, 0xFF, 0xFF, 0xFF, 0x07] = taken ++ [0x07] ∧
        (packInteger (-1)).length ≤ taken.length ∧
        (packInteger (-1) = taken ↔ Canonical taken) := by
  have h : (⟨[0xBF, 0xFF, 0xFF, 0xFF, 0xFF, 0x07]⟩ : FieldBuffer).popInteger =
      (.ok (-1), ⟨[0x07]⟩) := rfl
  exact ⟨h, FieldBuffer.pushInteger_shortest.2.2 _ _ _ h⟩

end ServerDiscovery.Wire
