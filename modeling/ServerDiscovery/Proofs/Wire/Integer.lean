import Mathlib.Algebra.Ring.Nat
import ServerDiscovery.Wire.Integer

/-! # Packed integers are read back

The bytes of an integer announce their own end: each byte but the last is continued, and the last is
not, unless it is the fifth.  `Delimited` says this of any number of bytes, and
`unpackInteger_eq_ok_iff` that a reader takes exactly such bytes from the front, whatever comes
behind them.

What a writer makes is delimited, and its value is the number that was written.  So an integer is
read back in front of any bytes (`unpackInteger_packInteger_append`).
-/

namespace ServerDiscovery.Wire

variable {limit n : Nat} {v : Int32} {b : UInt8} {bytes rest groups : Bytes} {negative : Bool}

/-! ## 1. Signs and magnitudes -/

theorem toNat_toUInt32_not (v : Int32) :
    (~~~v).toUInt32.toNat = 2 ^ 32 - 1 - v.toUInt32.toNat := by
  rw [Int32.toUInt32_not]
  exact UInt32.toNat_not _

/-- A number is negative if its highest bit is set. -/
theorem lt_zero_iff_toUInt32 : v < 0 ↔ 2 ^ 31 ≤ v.toUInt32.toNat := by
  have hint : v.toInt = v.toBitVec.toInt := rfl
  have hnat : v.toUInt32.toNat = v.toBitVec.toNat := rfl
  have hlt := v.toUInt32.toNat_lt
  rw [Int32.lt_iff_toInt_lt, hint, BitVec.toInt_eq_toNat_cond, Int32.toInt_zero]
  split <;> omega

theorem not_lt_zero_iff : ~~~v < 0 ↔ ¬ v < 0 := by
  have hlt := v.toUInt32.toNat_lt
  rw [lt_zero_iff_toUInt32, lt_zero_iff_toUInt32, toNat_toUInt32_not]
  omega

/-- A number and its complement have one magnitude. -/
theorem magnitude_not (v : Int32) : magnitude (~~~v) = magnitude v := by
  by_cases h : v < 0
  · have hnot : ¬ ~~~v < 0 := fun hlt => not_lt_zero_iff.mp hlt h
    rw [magnitude, magnitude, if_pos h, if_neg hnot]
  · rw [magnitude, magnitude, if_neg h, if_pos (not_lt_zero_iff.mpr h), Int32.not_not]

theorem magnitude_lt (v : Int32) : magnitude v < 2 ^ 31 := by
  have hlt := v.toUInt32.toNat_lt
  unfold magnitude
  split
  · next h =>
    have := lt_zero_iff_toUInt32.mp h
    rw [toNat_toUInt32_not]
    omega
  · next h =>
    have := not_congr lt_zero_iff_toUInt32 |>.mp h
    omega

theorem toNat_toUInt32_toInt32 (h : n < 2 ^ 32) :
    (UInt32.ofNat n).toInt32.toUInt32.toNat = n := by
  rw [UInt32.toUInt32_toInt32, UInt32.toNat_ofNat', Nat.mod_eq_of_lt h]

/-- The sign of a number is the one that it is made with, unless its magnitude reaches the highest
bit. -/
theorem ofMagnitude_lt_zero_iff (h : n < 2 ^ 31) :
    ofMagnitude negative n < 0 ↔ negative = true := by
  have hn := toNat_toUInt32_toInt32 (Nat.lt_trans h (by decide : 2 ^ 31 < 2 ^ 32))
  have hpositive : ¬ (UInt32.ofNat n).toInt32 < 0 := by
    rw [lt_zero_iff_toUInt32, hn]
    omega
  cases negative with
  | true => exact iff_of_true (not_lt_zero_iff.mpr hpositive) rfl
  | false => exact iff_of_false hpositive Bool.false_ne_true

theorem magnitude_ofMagnitude (h : n < 2 ^ 31) : magnitude (ofMagnitude negative n) = n := by
  have hn := toNat_toUInt32_toInt32 (Nat.lt_trans h (by decide : 2 ^ 31 < 2 ^ 32))
  have hpositive : magnitude (UInt32.ofNat n).toInt32 = n := by
    rw [magnitude, if_neg, hn]
    rw [lt_zero_iff_toUInt32, hn]
    omega
  cases negative with
  | true => rw [ofMagnitude, if_pos rfl, magnitude_not, hpositive]
  | false => exact hpositive

/-- A magnitude never grows when the number that it makes wraps. -/
theorem magnitude_ofMagnitude_le (negative : Bool) (n : Nat) :
    magnitude (ofMagnitude negative n) ≤ n := by
  by_cases h : n < 2 ^ 31
  · exact Nat.le_of_eq (magnitude_ofMagnitude h)
  · have := magnitude_lt (ofMagnitude negative n)
    omega

/-- A number is made of its sign and its magnitude. -/
theorem ofMagnitude_magnitude (v : Int32) : ofMagnitude (decide (v < 0)) (magnitude v) = v := by
  by_cases h : v < 0
  · simp only [ofMagnitude, magnitude, h, decide_true, if_true, UInt32.ofNat_toNat,
      Int32.toInt32_toUInt32, Int32.not_not]
  · simp only [ofMagnitude, magnitude, h, decide_false, Bool.false_eq_true, if_false,
      UInt32.ofNat_toNat, Int32.toInt32_toUInt32]

/-! ## 2. Bytes that announce their end -/

/-- At most `limit` bytes, each but the last of them continued.  The last is not, unless there could
be no further one. -/
structure Delimited (limit : Nat) (bytes : Bytes) : Prop where
  length_le : bytes.length ≤ limit
  continued : ∀ b ∈ bytes.dropLast, isContinued b = true
  ended : bytes.length < limit → ∃ b ∈ bytes.getLast?, isContinued b = false

theorem isContinued_iff : isContinued b = true ↔ 128 ≤ b.toNat := by
  rw [isContinued, decide_eq_true_iff, UInt8.le_iff_toNat_le]
  rfl

theorem isContinued_eq_false_iff : isContinued b = false ↔ b.toNat < 128 := by
  rw [← Bool.not_eq_true, isContinued_iff, Nat.not_le]

theorem delimited_zero_iff : Delimited 0 bytes ↔ bytes = [] := by
  constructor
  · intro h
    exact List.length_eq_zero_iff.mp (Nat.le_zero.mp h.length_le)
  · rintro rfl
    exact ⟨Nat.le_refl 0, by simp, fun h => absurd h (Nat.lt_irrefl 0)⟩

theorem not_delimited_nil : ¬ Delimited (limit + 1) [] := by
  intro h
  obtain ⟨b, hb, -⟩ := h.ended (Nat.succ_pos limit)
  cases hb

/-- A continued byte has the others behind it. -/
theorem delimited_cons_of_continued (hb : isContinued b = true) :
    Delimited (limit + 1) (b :: bytes) ↔ Delimited limit bytes := by
  rcases bytes with _ | ⟨c, bytes⟩
  · constructor
    · intro h
      refine ⟨Nat.zero_le limit, by simp, fun hlt => ?_⟩
      obtain ⟨d, hd, hended⟩ := h.ended (Nat.succ_lt_succ hlt)
      cases hd
      exact absurd hended (by simp [hb])
    · intro h
      refine ⟨Nat.succ_le_succ h.length_le, by simp, fun hlt => ?_⟩
      obtain ⟨d, hd, -⟩ := h.ended (Nat.lt_of_succ_lt_succ hlt)
      cases hd
  · constructor
    · intro h
      refine ⟨Nat.le_of_succ_le_succ h.length_le, fun d hd => h.continued d ?_, fun hlt => ?_⟩
      · rw [List.dropLast_cons_cons]
        exact List.mem_cons_of_mem _ hd
      · exact h.ended (Nat.succ_lt_succ hlt)
    · intro h
      refine ⟨Nat.succ_le_succ h.length_le, fun d hd => ?_, fun hlt => ?_⟩
      · rw [List.dropLast_cons_cons] at hd
        rcases List.mem_cons.mp hd with rfl | hd
        · exact hb
        · exact h.continued d hd
      · exact h.ended (Nat.lt_of_succ_lt_succ hlt)

/-- A byte that is not continued is the only one. -/
theorem delimited_cons_of_ended (hb : isContinued b = false) :
    Delimited (limit + 1) (b :: bytes) ↔ bytes = [] := by
  constructor
  · intro h
    rcases bytes with _ | ⟨c, bytes⟩
    · rfl
    · have := h.continued b (by simp)
      rw [hb] at this
      cases this
  · rintro rfl
    exact ⟨Nat.succ_le_succ (Nat.zero_le limit), by simp, fun _ => ⟨b, rfl, hb⟩⟩

/-! What a reader can take from the front of `b :: bytes` is decided by `b`. -/

theorem not_exists_delimited_nil {P : Bytes → Prop} :
    ¬ ∃ taken, [] = taken ++ rest ∧ Delimited (limit + 1) taken ∧ P taken := by
  rintro ⟨taken, happend, htaken, -⟩
  obtain ⟨rfl, -⟩ := List.append_eq_nil_iff.mp happend.symm
  exact not_delimited_nil htaken

theorem exists_delimited_cons_of_continued {P : Bytes → Prop} (hb : isContinued b = true) :
    (∃ taken, b :: bytes = taken ++ rest ∧ Delimited (limit + 1) taken ∧ P taken) ↔
      ∃ taken, bytes = taken ++ rest ∧ Delimited limit taken ∧ P (b :: taken) := by
  constructor
  · rintro ⟨taken, happend, htaken, hP⟩
    rcases taken with _ | ⟨c, taken⟩
    · exact absurd htaken not_delimited_nil
    · obtain ⟨rfl, hbytes⟩ := List.cons.inj happend
      exact ⟨taken, hbytes, (delimited_cons_of_continued hb).mp htaken, hP⟩
  · rintro ⟨taken, rfl, htaken, hP⟩
    exact ⟨b :: taken, rfl, (delimited_cons_of_continued hb).mpr htaken, hP⟩

theorem exists_delimited_cons_of_ended {P : Bytes → Prop} (hb : isContinued b = false) :
    (∃ taken, b :: bytes = taken ++ rest ∧ Delimited (limit + 1) taken ∧ P taken) ↔
      bytes = rest ∧ P [b] := by
  constructor
  · rintro ⟨taken, happend, htaken, hP⟩
    rcases taken with _ | ⟨c, taken⟩
    · exact absurd htaken not_delimited_nil
    · obtain ⟨rfl, hbytes⟩ := List.cons.inj happend
      obtain rfl := (delimited_cons_of_ended hb).mp htaken
      exact ⟨hbytes, hP⟩
  · rintro ⟨rfl, hP⟩
    exact ⟨[b], rfl, (delimited_cons_of_ended hb).mpr rfl, hP⟩

/-! ## 3. What a reader takes -/

/-- The number in groups of seven bits, low ones first. -/
def groupsValue (groups : Bytes) : Nat := groups.foldr (fun b n => b.toNat % 128 + 128 * n) 0

theorem groupsValue_nil : groupsValue [] = 0 := rfl

theorem groupsValue_cons (b : UInt8) (groups : Bytes) :
    groupsValue (b :: groups) = b.toNat % 128 + 128 * groupsValue groups := rfl

/-- The number in the bytes of an integer: the first has a sign and six bits, each other one seven
more bits. -/
def integerValue : Bytes → Int32
  | [] => 0
  | b :: groups => ofMagnitude (isNegative b) (b.toNat % 64 + 64 * groupsValue groups)

/-- The bytes of one integer. -/
def IsInteger (bytes : Bytes) : Prop := Delimited maxIntegerSize bytes

/-- A reader of groups takes delimited bytes from the front. -/
theorem unpackGroups_eq_some_iff :
    unpackGroups limit bytes = some (n, rest) ↔
      ∃ taken, bytes = taken ++ rest ∧ Delimited limit taken ∧ n = groupsValue taken := by
  induction limit generalizing bytes n with
  | zero =>
    constructor
    · intro h
      cases h
      exact ⟨[], rfl, delimited_zero_iff.mpr rfl, rfl⟩
    · rintro ⟨taken, rfl, htaken, rfl⟩
      obtain rfl := delimited_zero_iff.mp htaken
      rfl
  | succ limit ih =>
    rcases bytes with _ | ⟨b, bytes⟩
    · exact iff_of_false (by simp [unpackGroups]) not_exists_delimited_nil
    · by_cases hb : isContinued b = true
      · rw [unpackGroups, if_pos hb, exists_delimited_cons_of_continued hb]
        constructor
        · intro h
          split at h
          · next m r hr =>
            cases h
            obtain ⟨taken, rfl, htaken, rfl⟩ := ih.mp hr
            exact ⟨taken, rfl, htaken, groupsValue_cons b taken⟩
          · cases h
        · rintro ⟨taken, hbytes, htaken, rfl⟩
          rw [ih.mpr ⟨taken, hbytes, htaken, rfl⟩, groupsValue_cons]
      · have hended := Bool.eq_false_iff.mpr hb
        rw [unpackGroups, if_neg hb, exists_delimited_cons_of_ended hended]
        simp [groupsValue, eq_comm, and_comm]

/-- **A reader takes the bytes of one integer from the front**, and says which. -/
theorem unpackInteger_eq_ok_iff :
    unpackInteger bytes = .ok (v, rest) ↔
      ∃ taken, bytes = taken ++ rest ∧ IsInteger taken ∧ v = integerValue taken := by
  unfold IsInteger maxIntegerSize
  rcases bytes with _ | ⟨b, bytes⟩
  · exact iff_of_false (by simp [unpackInteger]) not_exists_delimited_nil
  · by_cases hb : isContinued b = true
    · rw [unpackInteger, if_pos hb, exists_delimited_cons_of_continued hb]
      constructor
      · intro h
        split at h
        · next n r hr =>
          cases h
          obtain ⟨taken, rfl, htaken, rfl⟩ := unpackGroups_eq_some_iff.mp hr
          exact ⟨taken, rfl, htaken, rfl⟩
        · cases h
      · rintro ⟨taken, hbytes, htaken, rfl⟩
        have hgroups : unpackGroups (maxIntegerSize - 1) bytes = some (groupsValue taken, rest) :=
          unpackGroups_eq_some_iff.mpr ⟨taken, hbytes, htaken, rfl⟩
        rw [hgroups]
        rfl
    · have hended := Bool.eq_false_iff.mpr hb
      rw [unpackInteger, if_neg hb, exists_delimited_cons_of_ended hended]
      simp [integerValue, groupsValue, eq_comm, and_comm]

/-! ## 4. What a writer makes -/

theorem delimited_packGroups (h : n < 128 ^ (limit + 1)) :
    Delimited (limit + 1) (packGroups n) := by
  induction limit generalizing n with
  | zero =>
    have hn : n < 128 := by simpa using h
    rw [packGroups, if_pos hn, delimited_cons_of_ended]
    rw [isContinued_eq_false_iff, UInt8.toNat_ofNat']
    omega
  | succ limit ih =>
    rw [packGroups]
    split
    · rw [delimited_cons_of_ended]
      rw [isContinued_eq_false_iff, UInt8.toNat_ofNat']
      omega
    · rw [delimited_cons_of_continued]
      · refine ih ?_
        rw [Nat.div_lt_iff_lt_mul (by decide)]
        rwa [Nat.pow_succ] at h
      · rw [isContinued_iff, UInt8.toNat_ofNat']
        omega

theorem groupsValue_packGroups (n : Nat) : groupsValue (packGroups n) = n := by
  fun_induction packGroups n with
  | case1 n h =>
    rw [groupsValue_cons, groupsValue_nil, UInt8.toNat_ofNat']
    omega
  | case2 n h ih =>
    rw [groupsValue_cons, ih, UInt8.toNat_ofNat']
    omega

theorem packInteger_ne_nil (v : Int32) : packInteger v ≠ [] := by
  unfold packInteger
  split <;> exact List.cons_ne_nil _ _

theorem signBit_le (v : Int32) : signBit v ≤ 64 := by
  unfold signBit
  split <;> decide

/-- A writer makes the bytes of one integer. -/
theorem isInteger_packInteger (v : Int32) : IsInteger (packInteger v) := by
  have hlt := magnitude_lt v
  have hsign := signBit_le v
  unfold IsInteger packInteger
  split
  · next h =>
    refine (delimited_cons_of_ended ?_).mpr rfl
    rw [isContinued_eq_false_iff, UInt8.toNat_ofNat']
    omega
  · next h =>
    refine (delimited_cons_of_continued ?_).mpr (delimited_packGroups ?_)
    · rw [isContinued_iff, UInt8.toNat_ofNat']
      omega
    · rw [Nat.div_lt_iff_lt_mul (by decide)]
      omega

/-- The first byte states the sign, whether or not others follow it. -/
theorem isNegative_ofNat (v : Int32) {flag low : Nat} (hflag : flag = 0 ∨ flag = 128)
    (hlow : low < 64) : isNegative (UInt8.ofNat (flag + signBit v + low)) = decide (v < 0) := by
  rw [isNegative, UInt8.toNat_ofNat']
  refine decide_eq_decide.mpr ?_
  by_cases h : v < 0
  · rw [signBit, if_pos h]
    exact iff_of_true (by omega) h
  · rw [signBit, if_neg h]
    exact iff_of_false (by omega) h

/-- The first byte states the low bits of the magnitude. -/
theorem toNat_ofNat_mod (v : Int32) {flag low : Nat} (hflag : flag = 0 ∨ flag = 128)
    (hlow : low < 64) : (UInt8.ofNat (flag + signBit v + low)).toNat % 64 = low := by
  rw [UInt8.toNat_ofNat']
  unfold signBit
  split <;> omega

/-- The bytes that a writer makes have the value that was written. -/
theorem integerValue_packInteger (v : Int32) : integerValue (packInteger v) = v := by
  unfold packInteger
  split
  · next h =>
    have hsign := isNegative_ofNat v (.inl rfl) h
    have hlow := toNat_ofNat_mod v (.inl rfl) h
    rw [Nat.zero_add] at hsign hlow
    rw [integerValue, hsign, hlow, groupsValue_nil]
    exact ofMagnitude_magnitude v
  · next h =>
    have hmod : magnitude v % 64 < 64 := Nat.mod_lt _ (by decide)
    rw [integerValue, isNegative_ofNat v (.inr rfl) hmod, toNat_ofNat_mod v (.inr rfl) hmod,
      groupsValue_packGroups, Nat.mod_add_div]
    exact ofMagnitude_magnitude v

/-- **What is written is read back**, whatever comes behind it. -/
theorem unpackInteger_packInteger_append (v : Int32) (rest : Bytes) :
    unpackInteger (packInteger v ++ rest) = .ok (v, rest) := by
  refine unpackInteger_eq_ok_iff.mpr ⟨packInteger v, rfl, isInteger_packInteger v, ?_⟩
  exact (integerValue_packInteger v).symm

end ServerDiscovery.Wire
