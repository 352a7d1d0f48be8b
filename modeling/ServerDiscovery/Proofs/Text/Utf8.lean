import ServerDiscovery.Text.Utf8

/-! # UTF-8 is read back

A step reads a scalar value exactly where its bytes stand (`step_eq_scalar_iff`).  So a text is read
back from its bytes, and a decoder finds U+0000 nowhere but at a zero byte: not in overlong bytes,
not in surrogates, and not in a defect.
-/

namespace ServerDiscovery.Utf8

variable {lead : UInt8} {bytes rest : List UInt8} {s : Char} {n : Nat}

/-! ## 1. Bytes and scalar values as numbers -/

theorem isContinuation_iff {b : UInt8} :
    isContinuation b = true ↔ 0x80 ≤ b.toNat ∧ b.toNat ≤ 0xBF := by
  simp only [isContinuation, Bool.and_eq_true, decide_eq_true_eq, UInt8.le_iff_toNat_le]
  rfl

/-- A second byte continues a sequence.  Where the lead byte leaves room for an overlong sequence, a
surrogate or a number beyond the last scalar value, it keeps out of it. -/
theorem isSecond_iff {b : UInt8} : isSecond lead b = true ↔
    (0x80 ≤ b.toNat ∧ b.toNat ≤ 0xBF) ∧ (lead.toNat = 0xE0 → 0xA0 ≤ b.toNat) ∧
      (lead.toNat = 0xED → b.toNat ≤ 0x9F) ∧ (lead.toNat = 0xF0 → 0x90 ≤ b.toNat) ∧
      (lead.toNat = 0xF4 → b.toNat ≤ 0x8F) := by
  simp only [isSecond, Bool.and_eq_true, decide_eq_true_eq, UInt8.le_iff_toNat_le]
  unfold secondRange
  simp only [beq_iff_eq, ← UInt8.toNat_inj]
  repeat' split
  all_goals simp only [UInt8.reduceToNat] at *; omega

/-- A number that is a scalar value is the number of its character. -/
theorem toNat_ofNat_of_isValidChar (h : n.isValidChar) : (Char.ofNat n).val.toNat = n := by
  rw [Char.ofNat, dif_pos h]
  rfl

/-! ## 2. The bytes of a scalar value -/

theorem encode_one (h : s.val.toNat ≤ 0x7F) :
    String.utf8EncodeChar s = [UInt8.ofNat s.val.toNat] := by
  rw [String.utf8EncodeChar, if_pos h]

theorem encode_two (hlow : ¬ s.val.toNat ≤ 0x7F) (h : s.val.toNat ≤ 0x7FF) :
    String.utf8EncodeChar s =
      [UInt8.ofNat (s.val.toNat / 64 % 0x20 + 0xC0), UInt8.ofNat (s.val.toNat % 0x40 + 0x80)] := by
  rw [String.utf8EncodeChar, if_neg hlow, if_pos h]

theorem encode_three (hlow : ¬ s.val.toNat ≤ 0x7FF) (h : s.val.toNat ≤ 0xFFFF) :
    String.utf8EncodeChar s =
      [UInt8.ofNat (s.val.toNat / 4096 % 0x10 + 0xE0), UInt8.ofNat (s.val.toNat / 64 % 0x40 + 0x80),
        UInt8.ofNat (s.val.toNat % 0x40 + 0x80)] := by
  rw [String.utf8EncodeChar, if_neg (by omega), if_neg hlow, if_pos h]

theorem encode_four (hlow : ¬ s.val.toNat ≤ 0xFFFF) :
    String.utf8EncodeChar s =
      [UInt8.ofNat (s.val.toNat / 262144 % 0x08 + 0xF0),
        UInt8.ofNat (s.val.toNat / 4096 % 0x40 + 0x80),
        UInt8.ofNat (s.val.toNat / 64 % 0x40 + 0x80), UInt8.ofNat (s.val.toNat % 0x40 + 0x80)] := by
  rw [String.utf8EncodeChar, if_neg (by omega), if_neg (by omega), if_neg hlow]

/-! ## 3. Steps -/

theorem stepTwo_eq_scalar_iff : stepTwo lead bytes = .scalar s rest ↔
    ∃ b, bytes = b :: rest ∧ isContinuation b = true ∧
      s = Char.ofNat (lead.toNat % 32 * 64 + continuationBits b) := by
  fun_cases stepTwo lead bytes <;> grind

theorem stepThree_eq_scalar_iff : stepThree lead bytes = .scalar s rest ↔
    ∃ b c, bytes = b :: c :: rest ∧ isSecond lead b = true ∧ isContinuation c = true ∧
      s = Char.ofNat (lead.toNat % 16 * 4096 + continuationBits b * 64 + continuationBits c) := by
  fun_cases stepThree lead bytes <;> grind

theorem stepFour_eq_scalar_iff : stepFour lead bytes = .scalar s rest ↔
    ∃ b c d, bytes = b :: c :: d :: rest ∧ isSecond lead b = true ∧ isContinuation c = true ∧
      isContinuation d = true ∧ s = Char.ofNat (lead.toNat % 8 * 262144 + continuationBits b * 4096
        + continuationBits c * 64 + continuationBits d) := by
  fun_cases stepFour lead bytes <;> grind

/-- The lead byte decides how many bytes follow. -/
theorem step_eq_scalar_cases : step lead bytes = .scalar s rest ↔
    (lead.toNat < 0x80 ∧ s = Char.ofNat lead.toNat ∧ bytes = rest) ∨
    (0xC2 ≤ lead.toNat ∧ lead.toNat < 0xE0 ∧ stepTwo lead bytes = .scalar s rest) ∨
    (0xE0 ≤ lead.toNat ∧ lead.toNat < 0xF0 ∧ stepThree lead bytes = .scalar s rest) ∨
    (0xF0 ≤ lead.toNat ∧ lead.toNat < 0xF5 ∧ stepFour lead bytes = .scalar s rest) := by
  have h80 : lead < 0x80 ↔ lead.toNat < 0x80 := UInt8.lt_iff_toNat_lt
  have hC2 : lead < 0xC2 ↔ lead.toNat < 0xC2 := UInt8.lt_iff_toNat_lt
  have hE0 : lead < 0xE0 ↔ lead.toNat < 0xE0 := UInt8.lt_iff_toNat_lt
  have hF0 : lead < 0xF0 ↔ lead.toNat < 0xF0 := UInt8.lt_iff_toNat_lt
  have hF5 : lead < 0xF5 ↔ lead.toNat < 0xF5 := UInt8.lt_iff_toNat_lt
  fun_cases step lead bytes <;> grind

/-! ## 4. What a step reads -/

theorem ofNat_eq {b : UInt8} (h : n % 256 = b.toNat) : UInt8.ofNat n = b := by
  apply UInt8.toNat_inj.mp
  rw [UInt8.toNat_ofNat', h]

theorem append_of_stepTwo (hlow : 0xC2 ≤ lead.toNat) (hhigh : lead.toNat < 0xE0)
    (h : stepTwo lead bytes = .scalar s rest) :
    lead :: bytes = String.utf8EncodeChar s ++ rest := by
  obtain ⟨b, rfl, hb, rfl⟩ := stepTwo_eq_scalar_iff.mp h
  rw [isContinuation_iff] at hb
  unfold continuationBits
  generalize hn : lead.toNat % 32 * 64 + b.toNat % 64 = n
  have hs := toNat_ofNat_of_isValidChar (n := n) (.inl (by omega))
  have h₀ : UInt8.ofNat (n / 64 % 0x20 + 0xC0) = lead := ofNat_eq (by omega)
  have h₁ : UInt8.ofNat (n % 0x40 + 0x80) = b := ofNat_eq (by omega)
  rw [encode_two (by omega) (by omega), hs, h₀, h₁]
  rfl

theorem append_of_stepThree (hlow : 0xE0 ≤ lead.toNat) (hhigh : lead.toNat < 0xF0)
    (h : stepThree lead bytes = .scalar s rest) :
    lead :: bytes = String.utf8EncodeChar s ++ rest := by
  obtain ⟨b, c, rfl, hb, hc, rfl⟩ := stepThree_eq_scalar_iff.mp h
  rw [isContinuation_iff] at hc
  obtain ⟨hb, hoverlong, hsurrogate, -, -⟩ := isSecond_iff.mp hb
  unfold continuationBits
  generalize hn : lead.toNat % 16 * 4096 + b.toNat % 64 * 64 + c.toNat % 64 = n
  have hvalid : n.isValidChar := by
    unfold Nat.isValidChar
    omega
  have hs := toNat_ofNat_of_isValidChar hvalid
  have h₀ : UInt8.ofNat (n / 4096 % 0x10 + 0xE0) = lead := ofNat_eq (by omega)
  have h₁ : UInt8.ofNat (n / 64 % 0x40 + 0x80) = b := ofNat_eq (by omega)
  have h₂ : UInt8.ofNat (n % 0x40 + 0x80) = c := ofNat_eq (by omega)
  rw [encode_three (by omega) (by omega), hs, h₀, h₁, h₂]
  rfl

theorem append_of_stepFour (hlow : 0xF0 ≤ lead.toNat) (hhigh : lead.toNat < 0xF5)
    (h : stepFour lead bytes = .scalar s rest) :
    lead :: bytes = String.utf8EncodeChar s ++ rest := by
  obtain ⟨b, c, d, rfl, hb, hc, hd, rfl⟩ := stepFour_eq_scalar_iff.mp h
  rw [isContinuation_iff] at hc hd
  obtain ⟨hb, -, -, hoverlong, hlast⟩ := isSecond_iff.mp hb
  unfold continuationBits
  generalize hn : lead.toNat % 8 * 262144 + b.toNat % 64 * 4096 + c.toNat % 64 * 64 + d.toNat % 64
    = n
  have hvalid : n.isValidChar := by
    unfold Nat.isValidChar
    omega
  have hs := toNat_ofNat_of_isValidChar hvalid
  have h₀ : UInt8.ofNat (n / 262144 % 0x08 + 0xF0) = lead := ofNat_eq (by omega)
  have h₁ : UInt8.ofNat (n / 4096 % 0x40 + 0x80) = b := ofNat_eq (by omega)
  have h₂ : UInt8.ofNat (n / 64 % 0x40 + 0x80) = c := ofNat_eq (by omega)
  have h₃ : UInt8.ofNat (n % 0x40 + 0x80) = d := ofNat_eq (by omega)
  rw [encode_four (by omega), hs, h₀, h₁, h₂, h₃]
  rfl

/-- Where a step reads a scalar value stand the bytes of this value. -/
theorem append_of_step_eq_scalar (h : step lead bytes = .scalar s rest) :
    lead :: bytes = String.utf8EncodeChar s ++ rest := by
  rcases step_eq_scalar_cases.mp h with
    ⟨hlead, rfl, rfl⟩ | ⟨hlow, hhigh, h⟩ | ⟨hlow, hhigh, h⟩ | ⟨hlow, hhigh, h⟩
  · have hs := toNat_ofNat_of_isValidChar (n := lead.toNat) (.inl (by omega))
    rw [encode_one (by omega), hs, UInt8.ofNat_toNat]
    rfl
  · exact append_of_stepTwo hlow hhigh h
  · exact append_of_stepThree hlow hhigh h
  · exact append_of_stepFour hlow hhigh h

/-- A byte behind the lead byte carries six bits. -/
theorem toNat_ofNat_continuation (n : Nat) :
    (UInt8.ofNat (n % 0x40 + 0x80)).toNat = n % 0x40 + 0x80 := by
  rw [UInt8.toNat_ofNat']
  omega

theorem step_two (hlow : ¬ n ≤ 0x7F) (hhigh : n ≤ 0x7FF) (rest : List UInt8) :
    step (UInt8.ofNat (n / 64 % 0x20 + 0xC0)) (UInt8.ofNat (n % 0x40 + 0x80) :: rest) =
      .scalar (Char.ofNat n) rest := by
  have h₀ : (UInt8.ofNat (n / 64 % 0x20 + 0xC0)).toNat = n / 64 + 0xC0 := by
    rw [UInt8.toNat_ofNat']
    omega
  have h₁ := toNat_ofNat_continuation n
  refine step_eq_scalar_cases.mpr (.inr (.inl ⟨by omega, by omega, ?_⟩))
  refine stepTwo_eq_scalar_iff.mpr ⟨_, rfl, isContinuation_iff.mpr (by omega), ?_⟩
  rw [continuationBits, h₀, h₁]
  congr 1
  omega

theorem step_three (hlow : ¬ n ≤ 0x7FF) (hhigh : n ≤ 0xFFFF) (hvalid : n.isValidChar)
    (rest : List UInt8) :
    step (UInt8.ofNat (n / 4096 % 0x10 + 0xE0))
        (UInt8.ofNat (n / 64 % 0x40 + 0x80) :: UInt8.ofNat (n % 0x40 + 0x80) :: rest) =
      .scalar (Char.ofNat n) rest := by
  have h₀ : (UInt8.ofNat (n / 4096 % 0x10 + 0xE0)).toNat = n / 4096 + 0xE0 := by
    rw [UInt8.toNat_ofNat']
    omega
  have h₁ := toNat_ofNat_continuation (n / 64)
  have h₂ := toNat_ofNat_continuation n
  unfold Nat.isValidChar at hvalid
  refine step_eq_scalar_cases.mpr (.inr (.inr (.inl ⟨by omega, by omega, ?_⟩)))
  refine stepThree_eq_scalar_iff.mpr
    ⟨_, _, rfl, isSecond_iff.mpr (by omega), isContinuation_iff.mpr (by omega), ?_⟩
  rw [continuationBits, continuationBits, h₀, h₁, h₂]
  congr 1
  omega

theorem step_four (hlow : ¬ n ≤ 0xFFFF) (hvalid : n.isValidChar) (rest : List UInt8) :
    step (UInt8.ofNat (n / 262144 % 0x08 + 0xF0))
        (UInt8.ofNat (n / 4096 % 0x40 + 0x80) :: UInt8.ofNat (n / 64 % 0x40 + 0x80) ::
          UInt8.ofNat (n % 0x40 + 0x80) :: rest) =
      .scalar (Char.ofNat n) rest := by
  unfold Nat.isValidChar at hvalid
  have h₀ : (UInt8.ofNat (n / 262144 % 0x08 + 0xF0)).toNat = n / 262144 + 0xF0 := by
    rw [UInt8.toNat_ofNat']
    omega
  have h₁ := toNat_ofNat_continuation (n / 4096)
  have h₂ := toNat_ofNat_continuation (n / 64)
  have h₃ := toNat_ofNat_continuation n
  refine step_eq_scalar_cases.mpr (.inr (.inr (.inr ⟨by omega, by omega, ?_⟩)))
  refine stepFour_eq_scalar_iff.mpr ⟨_, _, _, rfl, isSecond_iff.mpr (by omega),
    isContinuation_iff.mpr (by omega), isContinuation_iff.mpr (by omega), ?_⟩
  rw [continuationBits, continuationBits, continuationBits, h₀, h₁, h₂, h₃]
  congr 1
  omega

/-- Where the bytes of a scalar value stand, a step reads this value. -/
theorem step_eq_scalar_of_append (h : lead :: bytes = String.utf8EncodeChar s ++ rest) :
    step lead bytes = .scalar s rest := by
  have hvalid : s.val.toNat.isValidChar := s.valid
  have hs : Char.ofNat s.val.toNat = s := Char.ofNat_toNat s
  by_cases h₁ : s.val.toNat ≤ 0x7F
  · rw [encode_one h₁] at h
    obtain ⟨rfl, rfl⟩ := List.cons.inj h
    have hlead : (UInt8.ofNat s.val.toNat).toNat = s.val.toNat := by
      rw [UInt8.toNat_ofNat']
      omega
    exact step_eq_scalar_cases.mpr (.inl ⟨by omega, by rw [hlead, hs], rfl⟩)
  by_cases h₂ : s.val.toNat ≤ 0x7FF
  · rw [encode_two h₁ h₂] at h
    obtain ⟨rfl, rfl⟩ := List.cons.inj h
    have hstep := step_two h₁ h₂ rest
    rwa [hs] at hstep
  by_cases h₃ : s.val.toNat ≤ 0xFFFF
  · rw [encode_three h₂ h₃] at h
    obtain ⟨rfl, rfl⟩ := List.cons.inj h
    have hstep := step_three h₂ h₃ hvalid rest
    rwa [hs] at hstep
  · rw [encode_four h₃] at h
    obtain ⟨rfl, rfl⟩ := List.cons.inj h
    have hstep := step_four h₃ hvalid rest
    rwa [hs] at hstep

/-- **A step reads a scalar value exactly where its bytes stand.** -/
theorem step_eq_scalar_iff :
    step lead bytes = .scalar s rest ↔ lead :: bytes = String.utf8EncodeChar s ++ rest :=
  ⟨append_of_step_eq_scalar, step_eq_scalar_of_append⟩

/-! ## 5. Texts -/

theorem scalars?_utf8EncodeChar_append (s : Char) (rest : List UInt8) :
    scalars? (String.utf8EncodeChar s ++ rest) = (scalars? rest).map (s :: ·) := by
  obtain ⟨lead, after, hencode⟩ :=
    List.exists_cons_of_ne_nil (String.utf8EncodeChar_ne_nil (c := s))
  have hstep : step lead (after ++ rest) = .scalar s rest := by
    rw [step_eq_scalar_iff, hencode, List.cons_append]
  rw [hencode, List.cons_append, scalars?]
  split <;> simp_all

/-- **A text is read back from its bytes.** -/
theorem decode?_encode (text : String) : decode? (encode text) = some text := by
  have h (cs : List Char) : scalars? (cs.flatMap String.utf8EncodeChar) = some cs := by
    induction cs with
    | nil => simp [scalars?]
    | cons c cs ih => rw [List.flatMap_cons, scalars?_utf8EncodeChar_append, ih, Option.map_some]
  rw [decode?, encode, h, Option.map_some, String.ofList_toList]

/-- A forgiving decoder reads it back as well. -/
theorem decodeLossy_encode (text : String) : decodeLossy (encode text) = text :=
  decodeLossy_eq_of_decode? (decode?_encode text)

theorem eq_flatMap_of_scalars? {cs : List Char} (h : scalars? bytes = some cs) :
    bytes = cs.flatMap String.utf8EncodeChar := by
  fun_induction scalars? bytes generalizing cs with
  | case1 =>
    cases h
    rfl
  | case2 lead bytes c rest hstep _ ih =>
    obtain ⟨ds, hds, rfl⟩ := Option.map_eq_some_iff.mp h
    rw [step_eq_scalar_iff.mp hstep, List.flatMap_cons, ← ih hds]
  | case3 => cases h

/-- **A strict decoder reads the bytes of a text, and no others.** -/
theorem decode?_eq_some_iff {text : String} : decode? bytes = some text ↔ bytes = encode text := by
  constructor
  · intro h
    obtain ⟨cs, hcs, rfl⟩ := Option.map_eq_some_iff.mp h
    rw [encode, String.toList_ofList]
    exact eq_flatMap_of_scalars? hcs
  · rintro rfl
    exact decode?_encode text

/-! ## 6. Zero bytes -/

theorem zero_ne_ofNat (h : n % 256 ≠ 0) : (0 : UInt8) ≠ UInt8.ofNat n := by
  intro heq
  have := congrArg UInt8.toNat heq
  rw [UInt8.toNat_ofNat'] at this
  exact h this.symm

/-- Every byte of a longer sequence has its highest bit set. -/
theorem zero_not_mem_utf8EncodeChar (h₁ : ¬ s.val.toNat ≤ 0x7F) :
    0 ∉ String.utf8EncodeChar s := by
  by_cases h₂ : s.val.toNat ≤ 0x7FF
  · simp only [encode_two h₁ h₂, List.mem_cons, List.not_mem_nil, or_false, not_or]
    exact ⟨zero_ne_ofNat (by omega), zero_ne_ofNat (by omega)⟩
  by_cases h₃ : s.val.toNat ≤ 0xFFFF
  · simp only [encode_three h₂ h₃, List.mem_cons, List.not_mem_nil, or_false, not_or]
    exact ⟨zero_ne_ofNat (by omega), zero_ne_ofNat (by omega), zero_ne_ofNat (by omega)⟩
  · simp only [encode_four h₃, List.mem_cons, List.not_mem_nil, or_false, not_or]
    exact ⟨zero_ne_ofNat (by omega), zero_ne_ofNat (by omega), zero_ne_ofNat (by omega),
      zero_ne_ofNat (by omega)⟩

theorem zero_mem_utf8EncodeChar_iff : 0 ∈ String.utf8EncodeChar s ↔ s = '\x00' := by
  constructor
  · intro h
    by_cases h₁ : s.val.toNat ≤ 0x7F
    · rw [encode_one h₁, List.mem_singleton] at h
      have hzero : s.val.toNat = 0 := by
        have := congrArg UInt8.toNat h
        rw [UInt8.toNat_ofNat'] at this
        change 0 = _ at this
        omega
      exact Char.ext (UInt32.toNat_inj.mp hzero)
    · exact absurd h (zero_not_mem_utf8EncodeChar h₁)
  · rintro rfl
    decide

/-- Only U+0000 has a zero byte. -/
theorem zero_mem_encode_iff {text : String} : 0 ∈ encode text ↔ '\x00' ∈ text.toList := by
  simp [encode, zero_mem_utf8EncodeChar_iff]

/-- What is left after a step was there before. -/
theorem mem_of_mem_rest_step {b : UInt8} (h : b ∈ (step lead bytes).rest) : b ∈ bytes := by
  have htwo : ∀ b ∈ (stepTwo lead bytes).rest, b ∈ bytes := by
    fun_cases stepTwo lead bytes <;> grind [Step.rest]
  have hthree : ∀ b ∈ (stepThree lead bytes).rest, b ∈ bytes := by
    fun_cases stepThree lead bytes <;> grind [Step.rest]
  have hfour : ∀ b ∈ (stepFour lead bytes).rest, b ∈ bytes := by
    fun_cases stepFour lead bytes <;> grind [Step.rest]
  revert h
  fun_cases step lead bytes <;> grind [Step.rest]

/-- A decoder finds U+0000 at no other byte than a zero byte. -/
theorem nul_not_mem_scalars (h : 0 ∉ bytes) : '\x00' ∉ scalars bytes := by
  fun_induction scalars bytes with
  | case1 => exact List.not_mem_nil
  | case2 lead bytes c rest hstep _ ih =>
    rw [List.mem_cons, not_or]
    constructor
    · rintro rfl
      have hbytes := step_eq_scalar_iff.mp hstep
      exact h (hbytes ▸ List.mem_append_left _ (zero_mem_utf8EncodeChar_iff.mpr rfl))
    · refine ih fun hzero => h (List.mem_cons_of_mem lead ?_)
      have hrest : 0 ∈ (step lead bytes).rest := by rwa [hstep]
      exact mem_of_mem_rest_step hrest
  | case3 lead bytes rest hstep _ ih =>
    rw [List.mem_cons, not_or]
    refine ⟨by decide, ih fun hzero => h (List.mem_cons_of_mem lead ?_)⟩
    have hrest : 0 ∈ (step lead bytes).rest := by rwa [hstep]
    exact mem_of_mem_rest_step hrest

end ServerDiscovery.Utf8
