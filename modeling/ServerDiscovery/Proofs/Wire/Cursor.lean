import Mathlib.Algebra.BigOperators.Intervals
import Mathlib.Algebra.BigOperators.Ring.Finset
import Mathlib.Data.Nat.Bitwise
import Mathlib.Tactic.Ring
import ServerDiscovery.Proofs.Wire.Integer
import ServerDiscovery.Wire.Cursor
import ServerDiscovery.Wire.FieldBuffer

/-! # What a reader of integers makes of any bytes

`Wire.announcedSize` is the number of bytes that the bytes themselves announce, and
`Wire.bitPattern` the number that so many bytes hold, as a sum over their places.  The main
statement, `FieldBuffer.popInteger_eq`, gives the outcome for every buffer in these terms: nothing
to read, too few bytes, or the integer with that bit pattern.

The same outcome is that of the reader with a cursor, which never leaves the bytes and never shifts
a word by all its bits (`unpackAtCursor?_eq`).  The invariant of its loop is that the word has no
bit where the next group is put: it is below `2 ^ (6 + 7 * index)`.  The fifth group reaches beyond
the word, so from there on all is modulo `2 ^ 32`.
-/

namespace ServerDiscovery.Wire

variable {bytes rest done : Bytes} {byte bit mask : UInt8} {word group : UInt32}
  {k amount count index : Nat}

/-! ## 1. Bits of bytes and words -/

/-- A byte has a bit in common with a mask of one bit exactly if that bit is set. -/
theorem and_ne_zero_iff (hbit : bit.toNat = 2 ^ k) (byte : UInt8) :
    byte &&& bit ≠ 0 ↔ byte.toNat.testBit k = true := by
  rw [ne_eq, ← UInt8.toNat_inj, UInt8.toNat_and, hbit, Nat.and_two_pow, UInt8.toNat_zero]
  cases byte.toNat.testBit k with
  | true => simp
  | false => simp

/-- A mask of `k` ones keeps the low `k` bits of a byte. -/
theorem toNat_and_toUInt32 (hmask : mask.toNat = 2 ^ k - 1) (byte : UInt8) :
    (byte &&& mask).toUInt32.toNat = byte.toNat % 2 ^ k := by
  rw [UInt8.toNat_toUInt32, UInt8.toNat_and, hmask, Nat.and_two_pow_sub_one_eq_mod]

theorem isContinued_eq_testBit (byte : UInt8) : isContinued byte = byte.toNat.testBit 7 := by
  have hlt := byte.toNat_lt
  rw [Bool.eq_iff_iff, isContinued_iff, Nat.testBit_eq_decide_div_mod_eq, decide_eq_true_iff]
  omega

theorem and_continuation_ne_zero_iff (byte : UInt8) :
    byte &&& 0x80 ≠ 0 ↔ isContinued byte = true := by
  rw [and_ne_zero_iff (k := 7) rfl, isContinued_eq_testBit]

theorem isNegative_eq_testBit (byte : UInt8) : isNegative byte = byte.toNat.testBit 6 := by
  rw [isNegative, Nat.testBit_eq_decide_div_mod_eq]
  exact decide_eq_decide.mpr (by omega)

/-- To put a group above all bits of a word is to add it, modulo the size of a word. -/
theorem toNat_or_shiftLeft (hamount : amount < 32) (hword : word.toNat < 2 ^ amount)
    (group : UInt32) :
    (word ||| group <<< UInt32.ofNat amount).toNat =
      (word.toNat + 2 ^ amount * group.toNat) % 2 ^ 32 := by
  have hsize : 2 ^ 32 = 2 ^ amount * 2 ^ (32 - amount) := by
    rw [← Nat.pow_add, Nat.add_sub_cancel' (Nat.le_of_lt hamount)]
  have hshift : (UInt32.ofNat amount).toNat % 32 = amount := by
    rw [UInt32.toNat_ofNat']
    omega
  have hgroup : (group <<< UInt32.ofNat amount).toNat =
      2 ^ amount * (group.toNat % 2 ^ (32 - amount)) := by
    rw [UInt32.toNat_shiftLeft, hshift, Nat.shiftLeft_eq, Nat.mul_comm, hsize,
      Nat.mul_mod_mul_left]
  have hlow : (word.toNat + 2 ^ amount * group.toNat) % 2 ^ amount = word.toNat := by
    rw [Nat.add_mul_mod_self_left, Nat.mod_eq_of_lt hword]
  have hhigh : (word.toNat + 2 ^ amount * group.toNat) / 2 ^ amount = group.toNat := by
    rw [Nat.add_mul_div_left _ _ (Nat.two_pow_pos amount), Nat.div_eq_of_lt hword, Nat.zero_add]
  rw [UInt32.toNat_or, hgroup, Nat.or_comm, ← Nat.two_pow_add_eq_or_of_lt hword, hsize, Nat.mod_mul,
    hlow, hhigh, Nat.add_comm]

/-- Numbers that are equal modulo `2 ^ 32` are the same word. -/
theorem ofNat_mod_add (m n : Nat) : UInt32.ofNat (m % 2 ^ 32 + n) = UInt32.ofNat (m + n) := by
  apply UInt32.toNat_inj.mp
  rw [UInt32.toNat_ofNat', UInt32.toNat_ofNat', Nat.mod_add_mod]

/-! ## 2. The cursor -/

/-- The word with the seven bits of `next` put where the cursor at `index` puts those of the next
byte. -/
def putGroup (word : UInt32) (next : UInt8) (index : Nat) : UInt32 :=
  word ||| (next &&& 0x7F).toUInt32 <<< UInt32.ofNat (6 + 7 * index)

theorem two_pow_place_succ (index : Nat) :
    2 ^ (6 + 7 * (index + 1)) = 2 ^ (6 + 7 * index) * 128 := by
  rw [Nat.mul_succ, ← Nat.add_assoc, Nat.pow_add]

theorem toNat_putGroup (hindex : index < maxIntegerSize - 1)
    (hword : word.toNat < 2 ^ (6 + 7 * index)) (next : UInt8) :
    (putGroup word next index).toNat =
      (word.toNat + 2 ^ (6 + 7 * index) * (next.toNat % 128)) % 2 ^ 32 := by
  have hamount : 6 + 7 * index < 32 := by
    unfold maxIntegerSize at hindex
    omega
  have hgroup : (next &&& 0x7F).toUInt32.toNat = next.toNat % 128 :=
    toNat_and_toUInt32 (k := 7) rfl next
  rw [putGroup, toNat_or_shiftLeft hamount hword, hgroup]

/-- The word again has no bit where the next group is put. -/
theorem toNat_putGroup_lt (hindex : index < maxIntegerSize - 1)
    (hword : word.toNat < 2 ^ (6 + 7 * index)) (next : UInt8) :
    (putGroup word next index).toNat < 2 ^ (6 + 7 * (index + 1)) := by
  have hbits : 2 ^ (6 + 7 * index) * (next.toNat % 128) ≤ 2 ^ (6 + 7 * index) * 127 :=
    Nat.mul_le_mul_left _ (by omega)
  have hwrapped := Nat.mod_le (word.toNat + 2 ^ (6 + 7 * index) * (next.toNat % 128)) (2 ^ 32)
  rw [toNat_putGroup hindex hword, two_pow_place_succ]
  omega

theorem getElem?_append_length (done rest : Bytes) (byte : UInt8) :
    (done ++ byte :: rest)[done.length]? = some byte := by
  simp

theorem getElem?_append_length_succ (done rest : Bytes) (byte : UInt8) :
    (done ++ byte :: rest)[done.length + 1]? = rest[0]? := by
  simp [List.getElem?_append_right]

/-- The cursor stays at a byte that is not continued. -/
theorem readGroups?_of_ended (done rest : Bytes) (word : UInt32) (hb : isContinued byte = false) :
    readGroups? (done ++ byte :: rest) done.length word = some (.ok (word, done.length)) := by
  rw [readGroups?, getElem?_append_length]
  simp [and_continuation_ne_zero_iff, hb]

/-- The cursor stays at the fifth byte. -/
theorem readGroups?_of_last (done rest : Bytes) (word : UInt32)
    (hlast : ¬ done.length < maxIntegerSize - 1) :
    readGroups? (done ++ byte :: rest) done.length word = some (.ok (word, done.length)) := by
  rw [readGroups?, getElem?_append_length]
  simp [hlast]

/-- The cursor needs a byte behind one that is continued. -/
theorem readGroups?_of_missing (done : Bytes) (word : UInt32)
    (hindex : done.length < maxIntegerSize - 1) (hb : isContinued byte = true) :
    readGroups? (done ++ [byte]) done.length word = some (.error .truncatedInteger) := by
  have hmore := (and_continuation_ne_zero_iff byte).mpr hb
  rw [readGroups?, getElem?_append_length, getElem?_append_length_succ]
  simp [hmore, hindex]

/-- The cursor moves on to the byte behind one that is continued. -/
theorem readGroups?_of_next (done rest : Bytes) (word : UInt32) (next : UInt8)
    (hindex : done.length < maxIntegerSize - 1) (hb : isContinued byte = true) :
    readGroups? (done ++ byte :: next :: rest) done.length word =
      readGroups? ((done ++ [byte]) ++ next :: rest) (done ++ [byte]).length
        (putGroup word next done.length) := by
  have hmore := (and_continuation_ne_zero_iff byte).mpr hb
  have hamount : 6 + 7 * done.length < 32 := by
    unfold maxIntegerSize at hindex
    omega
  have hdone : done ++ byte :: next :: rest = (done ++ [byte]) ++ next :: rest := by simp
  have hlength : (done ++ [byte]).length = done.length + 1 := by simp
  rw [readGroups?, getElem?_append_length, getElem?_append_length_succ, hdone, hlength]
  simp [hmore, hindex, shiftLeft?, hamount, putGroup]

/-- **The cursor takes the groups behind it.**  It never leaves the bytes, and it finds the end of
them exactly if the groups do. -/
theorem readGroups?_of_continued (done : Bytes) (hcount : done.length + count = maxIntegerSize - 1)
    (hword : word.toNat < 2 ^ (6 + 7 * done.length)) (hb : isContinued byte = true) :
    readGroups? (done ++ byte :: rest) done.length word =
      some (match unpackGroups count rest with
        | some (n, left) => .ok (UInt32.ofNat (word.toNat + 2 ^ (6 + 7 * done.length) * n),
            done.length + (rest.length - left.length))
        | none => .error .truncatedInteger) := by
  induction count generalizing done byte rest word with
  | zero =>
    rw [readGroups?_of_last _ _ _ (by omega), unpackGroups]
    simp
  | succ count ih =>
    have hindex : done.length < maxIntegerSize - 1 := by omega
    rcases rest with _ | ⟨next, rest⟩
    · rw [readGroups?_of_missing _ _ hindex hb, unpackGroups]
    · have hlength : (done ++ [byte]).length = done.length + 1 := by simp
      have hput := toNat_putGroup hindex hword next
      rw [readGroups?_of_next _ _ _ _ hindex hb, unpackGroups]
      cases hc : isContinued next with
      | true =>
        have hroom : (putGroup word next done.length).toNat <
            2 ^ (6 + 7 * (done ++ [byte]).length) := by
          rw [hlength]
          exact toNat_putGroup_lt hindex hword next
        rw [ih (done ++ [byte]) (by omega) hroom hc, hput, hlength, if_pos rfl]
        rcases hg : unpackGroups count rest with _ | ⟨n, left⟩
        · rfl
        · have hleft := length_of_unpackGroups hg
          have hplace : done.length + 1 + (rest.length - left.length) =
              done.length + ((next :: rest).length - left.length) := by
            rw [List.length_cons]
            omega
          simp only [ofNat_mod_add, hplace, two_pow_place_succ]
          rw [Nat.mul_add, Nat.mul_assoc, Nat.add_assoc]
      | false =>
        have hword' : putGroup word next done.length =
            UInt32.ofNat (word.toNat + 2 ^ (6 + 7 * done.length) * (next.toNat % 128)) := by
          apply UInt32.toNat_inj.mp
          rw [hput, UInt32.toNat_ofNat']
        rw [readGroups?_of_ended _ _ _ hc, hlength, if_neg Bool.false_ne_true, hword']
        simp

/-- The sign is the bit above the six of the first byte. -/
theorem complement_eq_ofMagnitude (first : UInt8) (n : Nat) :
    (if first &&& 0x40 ≠ 0 then ~~~(UInt32.ofNat n).toInt32 else (UInt32.ofNat n).toInt32) =
      ofMagnitude (isNegative first) n := by
  have hbit : first &&& 0x40 ≠ 0 ↔ first.toNat.testBit 6 = true :=
    and_ne_zero_iff (k := 6) rfl first
  simp only [hbit, ofMagnitude, isNegative_eq_testBit]

/-- With a byte there, all depends on where the cursor stops. -/
theorem unpackAtCursor?_cons (first : UInt8) (rest : Bytes) :
    unpackAtCursor? (first :: rest) =
      (readGroups? (first :: rest) 0 (UInt32.ofNat (first.toNat % 64))).bind fun
        | .error e => some (.error e)
        | .ok (word, index) =>
          (advance? (first :: rest) (index + 1)).map fun left =>
            .ok (if first &&& 0x40 ≠ 0 then ~~~word.toInt32 else word.toInt32, left) := by
  have hlow : (first &&& 0x3F).toUInt32.toNat = first.toNat % 64 :=
    toNat_and_toUInt32 (k := 6) rfl first
  rw [← hlow, UInt32.ofNat_toNat]
  rfl

/-- **A reader with a cursor does nothing that it may not do**, and its outcome is that of the
reader that takes the list apart. -/
theorem unpackAtCursor?_eq (bytes : Bytes) :
    unpackAtCursor? bytes = some (unpackInteger bytes) := by
  rcases bytes with _ | ⟨first, rest⟩
  · rfl
  · rw [unpackAtCursor?_cons, unpackInteger]
    cases hc : isContinued first with
    | false =>
      have hgroups : readGroups? (first :: rest) 0 (UInt32.ofNat (first.toNat % 64)) =
          some (.ok (UInt32.ofNat (first.toNat % 64), 0)) := readGroups?_of_ended [] rest _ hc
      have hadvance : advance? (first :: rest) (0 + 1) = some rest := by simp [advance?]
      simp only [hgroups, hadvance, Option.bind_some, Option.map_some, complement_eq_ofMagnitude,
        Bool.false_eq_true, if_false]
    | true =>
      have hlow : (UInt32.ofNat (first.toNat % 64)).toNat = first.toNat % 64 := by
        rw [UInt32.toNat_ofNat']
        omega
      have hroom : (UInt32.ofNat (first.toNat % 64)).toNat <
          2 ^ (6 + 7 * List.length ([] : Bytes)) := by
        rw [hlow]
        exact Nat.mod_lt _ (by decide)
      have hgroups : readGroups? (first :: rest) 0 (UInt32.ofNat (first.toNat % 64)) =
          some (match unpackGroups (maxIntegerSize - 1) rest with
            | some (n, left) =>
              .ok (UInt32.ofNat ((UInt32.ofNat (first.toNat % 64)).toNat + 64 * n),
                0 + (rest.length - left.length))
            | none => .error .truncatedInteger) :=
        readGroups?_of_continued [] rfl hroom hc
      rw [hgroups, hlow, if_pos rfl]
      rcases hg : unpackGroups (maxIntegerSize - 1) rest with _ | ⟨n, left⟩
      · rfl
      · obtain ⟨taken, rfl, -, -⟩ := unpackGroups_eq_some_iff.mp hg
        have hplace : 0 + ((taken ++ left).length - left.length) + 1 = taken.length + 1 := by
          rw [List.length_append]
          omega
        have hadvance : advance? (first :: (taken ++ left)) (taken.length + 1) = some left := by
          simp [advance?]
        simp only [Option.bind_some, hplace, hadvance, Option.map_some, complement_eq_ofMagnitude]

/-! ## 3. The size that is announced -/

/-- The number of bytes that the bytes announce: up to the first whose bit 7 is clear, and never
more than five. -/
def announcedSize (bytes : Bytes) : Nat :=
  match bytes.findIdx? fun byte => !byte.toNat.testBit 7 with
  | some i => min maxIntegerSize (1 + i)
  | none => maxIntegerSize

theorem announcedSize_le (bytes : Bytes) : announcedSize bytes ≤ maxIntegerSize := by
  unfold announcedSize
  split
  · exact Nat.min_le_left ..
  · exact Nat.le_refl _

theorem announcedSize_pos (bytes : Bytes) : 0 < announcedSize bytes := by
  unfold announcedSize maxIntegerSize
  split <;> omega

/-- All announced bytes but the last are continued. -/
theorem isContinued_of_lt_announcedSize {i : Nat} (hi : i + 1 < announcedSize bytes)
    (hlt : i < bytes.length) : isContinued bytes[i] = true := by
  unfold announcedSize at hi
  rw [isContinued_eq_testBit]
  split at hi
  · next j hj =>
    obtain ⟨_, _, hbefore⟩ := List.findIdx?_eq_some_iff_getElem.mp hj
    simpa using hbefore i (by omega)
  · next hnone =>
    simpa using List.findIdx?_eq_none_iff.mp hnone bytes[i] (List.getElem_mem hlt)

/-- If fewer than five bytes are announced, then they are there, and the last is not continued. -/
theorem exists_ended_of_announcedSize_lt (h : announcedSize bytes < maxIntegerSize) :
    ∃ last, bytes[announcedSize bytes - 1]? = some last ∧ isContinued last = false := by
  unfold announcedSize at h ⊢
  split at h
  · next i hi =>
    obtain ⟨hlt, hended, -⟩ := List.findIdx?_eq_some_iff_getElem.mp hi
    have hplace : min maxIntegerSize (1 + i) - 1 = i := by omega
    refine ⟨bytes[i], ?_, ?_⟩
    · rw [hplace, List.getElem?_eq_getElem hlt]
    · rw [isContinued_eq_testBit]
      simpa using hended
  · exact absurd h (Nat.lt_irrefl _)

/-- Bytes that announce more than there are end inside an integer: they are at most four, and all of
them are continued. -/
theorem length_lt_announcedSize_iff :
    bytes.length < announcedSize bytes ↔
      bytes.length ≤ 4 ∧ ∀ byte ∈ bytes, byte.toNat.testBit 7 = true := by
  constructor
  · intro h
    have hle : announcedSize bytes ≤ 5 := announcedSize_le bytes
    refine ⟨by omega, fun byte hbyte => ?_⟩
    obtain ⟨i, hi, rfl⟩ := List.mem_iff_getElem.mp hbyte
    have hmore : i + 1 < announcedSize bytes := by omega
    rw [← isContinued_eq_testBit]
    exact isContinued_of_lt_announcedSize hmore hi
  · rintro ⟨hle, hall⟩
    have hnone : bytes.findIdx? (fun byte => !byte.toNat.testBit 7) = none :=
      List.findIdx?_eq_none_iff.mpr fun byte hbyte => by rw [hall byte hbyte]; rfl
    unfold announcedSize
    rw [hnone]
    exact Nat.lt_succ_of_le hle

/-- The announced bytes are those of one integer, if they are there. -/
theorem isInteger_take_announcedSize (h : announcedSize bytes ≤ bytes.length) :
    IsInteger (bytes.take (announcedSize bytes)) where
  length_le := by
    rw [List.length_take_of_le h]
    exact announcedSize_le bytes
  continued := by
    intro byte hbyte
    rw [List.dropLast_eq_take, List.length_take_of_le h, List.take_take] at hbyte
    obtain ⟨i, hi, rfl⟩ := List.mem_take_iff_getElem.mp hbyte
    exact isContinued_of_lt_announcedSize (by omega) (by omega)
  ended := by
    intro hlt
    rw [List.length_take_of_le h] at hlt
    obtain ⟨last, hlast, hended⟩ := exists_ended_of_announcedSize_lt hlt
    have hpos := announcedSize_pos bytes
    refine ⟨last, ?_, hended⟩
    rw [List.getLast?_take, if_neg (by omega), hlast]
    rfl

/-! ## 4. The bits that are held -/

/-- The number in the first `size` bytes: six bits of the first, and seven of each other, each above
those before it. -/
def bitPattern (bytes : Bytes) (size : Nat) : Nat :=
  (bytes.getD 0 0).toNat % 64
    + ∑ i ∈ Finset.Ico 1 size, (bytes.getD i 0).toNat % 128 * 2 ^ (6 + 7 * (i - 1))

/-- The integer whose 32 bits are the low ones of `pattern`, each of them turned over if
`complemented`. -/
def ofBitPattern (complemented : Bool) (pattern : Nat) : Int32 :=
  (UInt32.ofNat (if complemented then 2 ^ 32 - 1 - pattern % 2 ^ 32 else pattern % 2 ^ 32)).toInt32

theorem ofBitPattern_eq_ofMagnitude (negative : Bool) (n : Nat) :
    ofBitPattern negative n = ofMagnitude negative n := by
  have hword : (UInt32.ofNat (n % 2 ^ 32)) = UInt32.ofNat n := ofNat_mod_add n 0
  cases negative with
  | false => exact congrArg UInt32.toInt32 hword
  | true =>
    have hnot : UInt32.ofNat (2 ^ 32 - 1 - n % 2 ^ 32) = ~~~ UInt32.ofNat n := by
      apply UInt32.toNat_inj.mp
      rw [UInt32.toNat_not, UInt32.toNat_ofNat', UInt32.toNat_ofNat', UInt32.size]
      omega
    rw [ofBitPattern, ofMagnitude, if_pos rfl, if_pos rfl, hnot, UInt32.toInt32_not]

/-- Groups are a sum over their places. -/
theorem groupsValue_take (groups : Bytes) (count : Nat) :
    groupsValue (groups.take count) =
      ∑ i ∈ Finset.range count, (groups.getD i 0).toNat % 128 * 128 ^ i := by
  induction count generalizing groups with
  | zero => rfl
  | succ count ih =>
    rcases groups with _ | ⟨b, groups⟩
    · simp [groupsValue_nil]
    · rw [List.take_succ_cons, groupsValue_cons, ih, Finset.sum_range_succ', Finset.mul_sum,
        Nat.add_comm]
      congr 1
      · refine Finset.sum_congr rfl fun i _ => ?_
        rw [List.getD_cons_succ, Nat.pow_succ]
        ring
      · rw [List.getD_cons_zero, Nat.pow_zero, Nat.mul_one]

/-- The value of the bytes of an integer is the number that they hold. -/
theorem integerValue_take (first : UInt8) (rest : Bytes) (count : Nat) :
    integerValue ((first :: rest).take (count + 1)) =
      ofBitPattern (first.toNat.testBit 6) (bitPattern (first :: rest) (count + 1)) := by
  have hpattern : bitPattern (first :: rest) (count + 1) =
      first.toNat % 64 + 64 * groupsValue (rest.take count) := by
    rw [bitPattern, groupsValue_take, Finset.sum_Ico_eq_sum_range, Finset.mul_sum,
      List.getD_cons_zero]
    congr 1
    refine Finset.sum_congr (by rw [Nat.add_sub_cancel]) fun i _ => ?_
    rw [Nat.add_comm 1 i, List.getD_cons_succ, Nat.add_sub_cancel, Nat.pow_add, Nat.pow_mul]
    ring
  rw [List.take_succ_cons, integerValue, ofBitPattern_eq_ofMagnitude, hpattern,
    isNegative_eq_testBit]

/-! ## 5. The outcome for any bytes -/

/-- Bytes that end inside an integer are truncated. -/
theorem unpackInteger_of_length_lt (hnil : bytes ≠ []) (h : bytes.length < announcedSize bytes) :
    unpackInteger bytes = .error .truncatedInteger := by
  obtain ⟨hle, hall⟩ := length_lt_announcedSize_iff.mp h
  rcases bytes with _ | ⟨first, rest⟩
  · exact absurd rfl hnil
  · have hcontinued : ∀ byte ∈ first :: rest, isContinued byte = true := fun byte hbyte => by
      rw [isContinued_eq_testBit, hall byte hbyte]
    rw [unpackInteger, if_pos (hcontinued first List.mem_cons_self)]
    rcases hg : unpackGroups (maxIntegerSize - 1) rest with _ | ⟨n, left⟩
    · rfl
    · -- The groups that were taken would have to end with a byte that is not continued.
      obtain ⟨taken, rfl, htaken, -⟩ := unpackGroups_eq_some_iff.mp hg
      have hshort : taken.length < maxIntegerSize - 1 := by
        rw [List.length_cons, List.length_append] at hle
        unfold maxIntegerSize
        omega
      obtain ⟨last, hlast, hended⟩ := htaken.ended hshort
      have hmem : last ∈ first :: (taken ++ left) :=
        List.mem_cons_of_mem _ (List.mem_append_left _ (List.mem_of_getLast? hlast))
      rw [hcontinued last hmem] at hended
      cases hended

/-- Enough bytes are an integer and what is left. -/
theorem unpackInteger_of_announcedSize_le (hnil : bytes ≠ [])
    (h : announcedSize bytes ≤ bytes.length) :
    unpackInteger bytes =
      .ok (ofBitPattern ((bytes.getD 0 0).toNat.testBit 6) (bitPattern bytes (announcedSize bytes)),
        bytes.drop (announcedSize bytes)) := by
  refine unpackInteger_eq_ok_iff.mpr ⟨bytes.take (announcedSize bytes), ?_, ?_, ?_⟩
  · exact (List.take_append_drop _ _).symm
  · exact isInteger_take_announcedSize h
  · rcases bytes with _ | ⟨first, rest⟩
    · exact absurd rfl hnil
    · have hpos := announcedSize_pos (first :: rest)
      obtain ⟨count, hcount⟩ := Nat.exists_eq_succ_of_ne_zero (Nat.pos_iff_ne_zero.mp hpos)
      rw [hcount]
      exact (integerValue_take first rest count).symm

/-- **What a reader makes of any bytes.**  Of no bytes, and of bytes that end inside an integer, it
makes an error, and leaves them.  Otherwise it takes the announced bytes, and no others, and the
integer has the bit pattern that they hold.  A reader with a cursor does the same, and never leaves
the bytes nor shifts by the whole of a word. -/
theorem FieldBuffer.popInteger_eq (b : FieldBuffer) :
    (b.popInteger =
      if b.bytes = [] then (.error .noData, b)
      else if b.size < announcedSize b.bytes then (.error .truncatedInteger, b)
      else
        (.ok (ofBitPattern ((b.bytes.getD 0 0).toNat.testBit 6)
            (bitPattern b.bytes (announcedSize b.bytes))),
          ⟨b.bytes.drop (announcedSize b.bytes)⟩)) ∧
    (b.bytes ≠ [] ∧ b.size < announcedSize b.bytes ↔
      1 ≤ b.size ∧ b.size ≤ 4 ∧ ∀ byte ∈ b.bytes, byte.toNat.testBit 7 = true) ∧
    unpackAtCursor? b.bytes = some (unpackInteger b.bytes) := by
  refine ⟨?_, ?_, unpackAtCursor?_eq b.bytes⟩
  · unfold popInteger popWith size
    by_cases hnil : b.bytes = []
    · rw [if_pos hnil, hnil]
      rfl
    · rw [if_neg hnil]
      by_cases hlt : b.bytes.length < announcedSize b.bytes
      · rw [if_pos hlt, unpackInteger_of_length_lt hnil hlt]
      · rw [if_neg hlt, unpackInteger_of_announcedSize_le hnil (Nat.le_of_not_lt hlt)]
  · have hpos : b.bytes ≠ [] ↔ 1 ≤ b.size := List.length_pos_iff.symm
    rw [hpos, size, length_lt_announcedSize_iff]

/-- The fifth byte ends an integer although it is continued, and only four of its bits count. -/
example : (FieldBuffer.mk [0xC1, 0xFF, 0xFF, 0xFF, 0xFF, 7]).popInteger = (.ok 62, ⟨[7]⟩) := by
  decide +kernel

end ServerDiscovery.Wire
