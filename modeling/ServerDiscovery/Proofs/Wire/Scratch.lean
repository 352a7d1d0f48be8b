import ServerDiscovery.Proofs.Wire.Integer
import ServerDiscovery.Wire.Scratch

/-! # The scratch is large enough

A writer that fills a scratch of five bytes makes the same bytes as the writer that grows a list,
and never reaches beyond the scratch.

The invariant is on the room that is left behind the byte that was filled last: what is left of the
magnitude is below `128 ^ room`.  A magnitude has 31 bits, and the first byte takes six of them, so
the invariant holds with a room of four bytes when the groups begin.
-/

namespace ServerDiscovery.Wire

/-! ## 1. Words as numbers -/

theorem toNat_shiftRight_seven (m : UInt32) : (m >>> 7).toNat = m.toNat / 128 := by
  rw [UInt32.toNat_shiftRight]
  exact Nat.shiftRight_eq_div_pow ..

theorem toNat_shiftRight_six (m : UInt32) : (m >>> 6).toNat = m.toNat / 64 := by
  rw [UInt32.toNat_shiftRight]
  exact Nat.shiftRight_eq_div_pow ..

/-- A mask of `k` ones keeps the low `k` bits of a word. -/
theorem toNat_toUInt8_and {mask : UInt8} {k : Nat} (m : UInt32) (hk : k ≤ 8)
    (hmask : mask.toNat = 2 ^ k - 1) : (m.toUInt8 &&& mask).toNat = m.toNat % 2 ^ k := by
  rw [UInt8.toNat_and, hmask, Nat.and_two_pow_sub_one_eq_mod, UInt32.toNat_toUInt8]
  exact Nat.mod_mod_of_dvd _ (Nat.pow_dvd_pow 2 hk)

/-- To set a bit above all the others is to add it. -/
theorem or_eq_ofNat {bit b : UInt8} {k : Nat} (hbit : bit.toNat = 2 ^ k) (h : b.toNat < 2 ^ k) :
    b ||| bit = UInt8.ofNat (bit.toNat + b.toNat) := by
  have hor : b.toNat ||| 2 ^ k = 2 ^ k + b.toNat := by
    rw [Nat.or_comm, ← Nat.mul_one (2 ^ k), Nat.two_pow_add_eq_or_of_lt h 1]
  have hlt := (b ||| bit).toNat_lt
  rw [UInt8.toNat_or, hbit, hor] at hlt
  apply UInt8.toNat_inj.mp
  rw [UInt8.toNat_or, UInt8.toNat_ofNat', hbit, hor, Nat.mod_eq_of_lt hlt]

/-- Shifting all bits out leaves the sign. -/
theorem shiftRight_31 (v : Int32) : v >>> 31 = if v < 0 then -1 else 0 := by
  have hlow := v.le_toInt
  have hhigh := v.toInt_lt
  have hshift : (v >>> 31).toInt = v.toInt / 2 ^ 31 := by
    have : (v >>> 31).toInt = (v.toBitVec.sshiftRight 31).toInt := by
      rw [← Int32.toInt_toBitVec, Int32.toBitVec_shiftRight]
      rfl
    rw [this, BitVec.toInt_sshiftRight, Int.shiftRight_eq_div_pow]
    rfl
  apply Int32.toInt_inj.mp
  rw [hshift]
  split
  · next h =>
    have hneg : v.toInt < 0 := Int32.lt_iff_toInt_lt.mp h
    have : (-1 : Int32).toInt = -1 := rfl
    omega
  · next h =>
    have hneg : ¬ v.toInt < 0 := fun hlt => h (Int32.lt_iff_toInt_lt.mpr hlt)
    have : (0 : Int32).toInt = 0 := rfl
    omega

/-- The word that is left of a number without its sign is its magnitude. -/
theorem toNat_xor_sign (v : Int32) : (v ^^^ (v >>> 31)).toUInt32.toNat = magnitude v := by
  rw [shiftRight_31, magnitude]
  split
  · rw [Int32.xor_neg_one]
  · rw [Int32.xor_zero]

/-! ## 2. Changing bytes -/

/-- The scratch is the bytes that are done, the byte that was filled last, and the room behind. -/
theorem alter?_append_cons (done room : Bytes) (last : UInt8) (f : UInt8 → UInt8) :
    alter? (done ++ last :: room) done.length f = some (done ++ f last :: room) := by
  have hlt : done.length < (done ++ last :: room).length := by simp
  rw [alter?, if_pos hlt, List.modify_eq_take_cons_drop hlt]
  simp

theorem filled?_append (used unused : Bytes) (h : used ≠ []) :
    filled? (used ++ unused) (used.length - 1) = some used := by
  have hpos := List.length_pos_iff.mpr h
  rw [filled?, if_pos (by simp; omega), Nat.sub_add_cancel hpos, List.take_left]

/-! ## 3. The groups -/

/-- The bytes that are filled from `last` on, if `magnitude` is still to be written. -/
def groupsFrom (last : UInt8) (magnitude : UInt32) : Bytes :=
  if magnitude = 0 then [last] else (last ||| 0x80) :: packGroups magnitude.toNat

theorem groupsFrom_ne_nil (last : UInt8) (magnitude : UInt32) : groupsFrom last magnitude ≠ [] := by
  unfold groupsFrom
  split <;> simp

/-- A round of the loop fills the first of the groups that are left. -/
theorem packGroups_toNat (m : UInt32) :
    packGroups m.toNat = groupsFrom (m.toUInt8 &&& 0x7F) (m >>> 7) := by
  have hlow : (m.toUInt8 &&& 0x7F).toNat = m.toNat % 128 :=
    toNat_toUInt8_and (k := 7) m (by decide) rfl
  have hlt : m.toNat % 128 < 128 := Nat.mod_lt _ (by decide)
  have hzero : m >>> 7 = 0 ↔ m.toNat < 128 := by
    rw [← UInt32.toNat_inj, toNat_shiftRight_seven, UInt32.toNat_zero]
    omega
  rw [packGroups, groupsFrom]
  by_cases h : m.toNat < 128
  · rw [if_pos h, if_pos (hzero.mpr h)]
    rw [← Nat.mod_eq_of_lt h, ← hlow, UInt8.ofNat_toNat]
  · rw [if_neg h, if_neg (fun h' => h (hzero.mp h')), toNat_shiftRight_seven,
      or_eq_ofNat (k := 7) rfl (by rw [hlow]; exact hlt), hlow]
    rw [Nat.add_comm]
    rfl

/-- **The loop stays within the scratch** as long as there is room for the rest of the magnitude. -/
theorem fillGroups_eq (done room : Bytes) (last : UInt8) (magnitude : UInt32)
    (hroom : magnitude.toNat < 128 ^ room.length) :
    ∃ unused, fillGroups (done ++ last :: room) done.length magnitude =
      some (done ++ groupsFrom last magnitude ++ unused,
        done.length + ((groupsFrom last magnitude).length - 1)) := by
  induction room generalizing done last magnitude with
  | nil =>
    have hzero : magnitude = 0 := UInt32.toNat_inj.mp (Nat.lt_one_iff.mp (by simpa using hroom))
    refine ⟨[], ?_⟩
    rw [fillGroups, groupsFrom, if_pos hzero, if_pos hzero, List.append_nil]
    rfl
  | cons r room ih =>
    by_cases hzero : magnitude = 0
    · refine ⟨r :: room, ?_⟩
      rw [fillGroups, groupsFrom, if_pos hzero, if_pos hzero, List.append_assoc]
      rfl
    · have hnext : (magnitude >>> 7).toNat < 128 ^ room.length := by
        rw [toNat_shiftRight_seven, Nat.div_lt_iff_lt_mul (by decide)]
        simpa [Nat.pow_succ] using hroom
      obtain ⟨unused, hloop⟩ :=
        ih (done ++ [last ||| 0x80]) (magnitude.toUInt8 &&& 0x7F) (magnitude >>> 7) hnext
      have hfirst := alter?_append_cons done (r :: room) last fun byte => byte ||| 0x80
      have hsecond : alter? (done ++ (last ||| 0x80) :: r :: room) (done.length + 1)
          (fun _ => magnitude.toUInt8 &&& 0x7F) =
            some (done ++ [last ||| 0x80] ++ (magnitude.toUInt8 &&& 0x7F) :: room) := by
        have h := alter?_append_cons (done ++ [last ||| 0x80]) room r
          fun _ => magnitude.toUInt8 &&& 0x7F
        rw [List.length_append, List.length_singleton] at h
        rw [List.append_cons, h]
      have hused : groupsFrom last magnitude =
          (last ||| 0x80) :: groupsFrom (magnitude.toUInt8 &&& 0x7F) (magnitude >>> 7) := by
        rw [groupsFrom, if_neg hzero, packGroups_toNat]
      have hlength := List.length_pos_iff.mpr
        (groupsFrom_ne_nil (magnitude.toUInt8 &&& 0x7F) (magnitude >>> 7))
      refine ⟨unused, ?_⟩
      rw [List.length_append, List.length_singleton] at hloop
      rw [fillGroups, if_neg hzero, hfirst, Option.bind_eq_bind, Option.bind_some, hsecond,
        Option.bind_some, hloop, hused, List.append_cons, List.append_assoc, List.length_cons]
      simp
      omega

/-! ## 4. The whole number -/

/-- The first byte without its continuation bit: the sign and the low bits of the magnitude. -/
def firstByte (v : Int32) : UInt8 := UInt8.ofNat (signBit v + magnitude v % 64)

/-- The sign goes into the scratch first. -/
theorem putSign?_cons (v : Int32) (room : Bytes) :
    putSign? (0 :: room) (v >>> 31) = some (UInt8.ofNat (signBit v) :: room) := by
  rw [putSign?, shiftRight_31, signBit]
  by_cases h : v < 0
  · rw [if_pos h, if_pos h, if_pos (by decide)]
    exact alter?_append_cons [] room 0 _
  · rw [if_neg h, if_neg h, if_neg (by decide)]
    rfl

/-- The low bits of the magnitude do not meet the sign. -/
theorem or_signBit (v : Int32) {low : UInt8} (h : low.toNat = magnitude v % 64) :
    UInt8.ofNat (signBit v) ||| low = firstByte v := by
  have hlt : low.toNat < 64 := by
    rw [h]
    exact Nat.mod_lt _ (by decide)
  rw [firstByte, ← h, signBit]
  split
  · rw [UInt8.or_comm]
    exact or_eq_ofNat (k := 6) rfl hlt
  · rw [Nat.zero_add, UInt8.ofNat_toNat]
    exact UInt8.zero_or

/-- The first byte and the groups are the bytes of the number. -/
theorem packInteger_eq_groupsFrom {v : Int32} {m : UInt32} (h : m.toNat = magnitude v) :
    packInteger v = groupsFrom (firstByte v) (m >>> 6) := by
  have hzero : m >>> 6 = 0 ↔ magnitude v < 64 := by
    rw [← UInt32.toNat_inj, toNat_shiftRight_six, h, UInt32.toNat_zero]
    omega
  have hsign := signBit_le v
  have hfirst : (firstByte v).toNat = signBit v + magnitude v % 64 := by
    rw [firstByte, UInt8.toNat_ofNat']
    omega
  rw [packInteger, groupsFrom]
  by_cases hlt : magnitude v < 64
  · rw [if_pos hlt, if_pos (hzero.mpr hlt), firstByte, Nat.mod_eq_of_lt hlt]
  · rw [if_neg hlt, if_neg (fun h' => hlt (hzero.mp h')), toNat_shiftRight_six, h,
      or_eq_ofNat (k := 7) rfl (by rw [hfirst]; omega), hfirst, Nat.add_assoc]
    rfl

/-- **The scratch is large enough**, and what is sent from it are the bytes of the number. -/
theorem packInScratch?_eq (v : Int32) : packInScratch? v = some (packInteger v) := by
  have hmagnitude : (v ^^^ (v >>> 31)).toUInt32.toNat = magnitude v := toNat_xor_sign v
  have hlow : ((v ^^^ (v >>> 31)).toUInt32.toUInt8 &&& 0x3F).toNat = magnitude v % 64 := by
    rw [← hmagnitude]
    exact toNat_toUInt8_and (k := 6) _ (by decide) rfl
  have hroom : ((v ^^^ (v >>> 31)).toUInt32 >>> 6).toNat < 128 ^ (List.replicate 4 0).length := by
    have hlt := magnitude_lt v
    rw [toNat_shiftRight_six, hmagnitude, List.length_replicate]
    omega
  have hsign : putSign? (List.replicate maxIntegerSize 0) (v >>> 31) =
      some (UInt8.ofNat (signBit v) :: List.replicate 4 0) := putSign?_cons v (List.replicate 4 0)
  have hbits := alter?_append_cons [] (List.replicate 4 0) (UInt8.ofNat (signBit v))
    fun byte => byte ||| ((v ^^^ (v >>> 31)).toUInt32.toUInt8 &&& 0x3F)
  rw [or_signBit v hlow, List.length_nil, List.nil_append, List.nil_append] at hbits
  obtain ⟨unused, hloop⟩ := fillGroups_eq [] (List.replicate 4 0) (firstByte v) _ hroom
  rw [← packInteger_eq_groupsFrom hmagnitude, List.length_nil, List.nil_append, List.nil_append,
    Nat.zero_add] at hloop
  have hsent := filled?_append (packInteger v) unused (packInteger_ne_nil v)
  simp only [packInScratch?, hsign, hbits, hloop, hsent, Option.bind_eq_bind, Option.bind_some]

end ServerDiscovery.Wire
