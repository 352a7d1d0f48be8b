import ServerDiscovery.Proofs.Text.Utf8

/-! # What is put in the place of defects

A forgiving decoder answers on any bytes.  What it answers can be said without a decoder: where the
bytes of a scalar value stand, it reads this value; and where they do not, U+FFFD takes the place of
the longest part that the bytes of some scalar value begin with, but of one byte at least.  That is
`Mends`.

The two agree (`scalars_eq_iff`).  The lead byte says how long a sequence is, and the second byte is
the only one whose range depends on another, so it suffices to say for each length what the bytes of
some scalar value begin with (`begins_two_iff`, `begins_three_iff`, `begins_four_iff`).  A step that
finds a defect stops exactly where these are left.
-/

namespace ServerDiscovery.Utf8

variable {lead : UInt8} {bytes rest part part' rest' : List UInt8} {s : Char} {cs : List Char}

/-! ## 1. The rule -/

/-- The bytes of some scalar value begin with these. -/
def Begins (bytes : List UInt8) : Prop := ∃ s, bytes <+: String.utf8EncodeChar s

/-- No scalar value stands at the front of `part ++ rest`, and `part` is the longest part there that
the bytes of some scalar value begin with, or one byte if there is none. -/
structure IsDefect (part rest : List UInt8) : Prop where
  ne_nil : part ≠ []
  no_scalar : ∀ s, ¬ String.utf8EncodeChar s <+: part ++ rest
  begins : part.length = 1 ∨ Begins part
  longest : ∀ longer, longer <+: part ++ rest → Begins longer → longer.length ≤ part.length

/-- The scalar values are those of the bytes, with U+FFFD in the place of each defect. -/
inductive Mends : List UInt8 → List Char → Prop
  | nil : Mends [] []
  | scalar (s : Char) {rest : List UInt8} {cs : List Char} :
    Mends rest cs → Mends (String.utf8EncodeChar s ++ rest) (s :: cs)
  | defect {part rest : List UInt8} {cs : List Char} :
    IsDefect part rest → Mends rest cs → Mends (part ++ rest) (replacement :: cs)

/-! ## 2. What the bytes of a scalar value begin with -/

theorem Begins.of_prefix {shorter : List UInt8} (h : Begins bytes) (hshorter : shorter <+: bytes) :
    Begins shorter := by
  obtain ⟨s, hs⟩ := h
  exact ⟨s, hshorter.trans hs⟩

/-- Bytes begin those of a scalar value exactly if a step reads one as soon as more are put behind
them. -/
theorem begins_cons_iff :
    Begins (lead :: bytes) ↔ ∃ more s, step lead (bytes ++ more) = .scalar s [] := by
  constructor
  · rintro ⟨s, more, hmore⟩
    refine ⟨more, s, step_eq_scalar_iff.mpr ?_⟩
    rw [List.append_nil, ← hmore, List.cons_append]
  · rintro ⟨more, s, hstep⟩
    refine ⟨s, more, ?_⟩
    rw [← List.append_nil (String.utf8EncodeChar s), ← step_eq_scalar_iff.mp hstep,
      List.cons_append]

theorem isContinuation_least : isContinuation 0x80 = true := by decide

/-- Bytes that begin no sequence of any length. -/
theorem not_begins_of_stray (h : 0x80 ≤ lead.toNat)
    (hstray : lead.toNat < 0xC2 ∨ 0xF5 ≤ lead.toNat) :
    ¬ Begins (lead :: bytes) := by
  intro hbegins
  obtain ⟨more, s, hstep⟩ := begins_cons_iff.mp hbegins
  rcases step_eq_scalar_cases.mp hstep with ⟨_, -⟩ | ⟨_, _, -⟩ | ⟨_, _, -⟩ | ⟨_, _, -⟩ <;> omega

theorem begins_two_iff (hlow : 0xC2 ≤ lead.toNat) (hhigh : lead.toNat < 0xE0) :
    Begins (lead :: bytes) ↔ ∃ b, bytes <+: [b] ∧ isContinuation b = true := by
  rw [begins_cons_iff]
  constructor
  · rintro ⟨more, s, hstep⟩
    rcases step_eq_scalar_cases.mp hstep with ⟨_, -⟩ | ⟨_, _, h⟩ | ⟨_, _, -⟩ | ⟨_, _, -⟩
    · omega
    · obtain ⟨b, hbytes, hb, -⟩ := stepTwo_eq_scalar_iff.mp h
      exact ⟨b, ⟨more, hbytes⟩, hb⟩
    · omega
    · omega
  · rintro ⟨b, ⟨more, hbytes⟩, hb⟩
    obtain ⟨s, hstep⟩ : ∃ s, stepTwo lead (bytes ++ more) = .scalar s [] :=
      ⟨_, stepTwo_eq_scalar_iff.mpr ⟨b, hbytes, hb, rfl⟩⟩
    exact ⟨more, s, step_eq_scalar_cases.mpr (.inr (.inl ⟨hlow, hhigh, hstep⟩))⟩

theorem begins_three_iff (hlow : 0xE0 ≤ lead.toNat) (hhigh : lead.toNat < 0xF0) :
    Begins (lead :: bytes) ↔
      ∃ b c, bytes <+: [b, c] ∧ isSecond lead b = true ∧ isContinuation c = true := by
  rw [begins_cons_iff]
  constructor
  · rintro ⟨more, s, hstep⟩
    rcases step_eq_scalar_cases.mp hstep with ⟨_, -⟩ | ⟨_, _, -⟩ | ⟨_, _, h⟩ | ⟨_, _, -⟩
    · omega
    · omega
    · obtain ⟨b, c, hbytes, hb, hc, -⟩ := stepThree_eq_scalar_iff.mp h
      exact ⟨b, c, ⟨more, hbytes⟩, hb, hc⟩
    · omega
  · rintro ⟨b, c, ⟨more, hbytes⟩, hb, hc⟩
    obtain ⟨s, hstep⟩ : ∃ s, stepThree lead (bytes ++ more) = .scalar s [] :=
      ⟨_, stepThree_eq_scalar_iff.mpr ⟨b, c, hbytes, hb, hc, rfl⟩⟩
    exact ⟨more, s, step_eq_scalar_cases.mpr (.inr (.inr (.inl ⟨hlow, hhigh, hstep⟩)))⟩

theorem begins_four_iff (hlow : 0xF0 ≤ lead.toNat) (hhigh : lead.toNat < 0xF5) :
    Begins (lead :: bytes) ↔ ∃ b c d, bytes <+: [b, c, d] ∧ isSecond lead b = true ∧
      isContinuation c = true ∧ isContinuation d = true := by
  rw [begins_cons_iff]
  constructor
  · rintro ⟨more, s, hstep⟩
    rcases step_eq_scalar_cases.mp hstep with ⟨_, -⟩ | ⟨_, _, -⟩ | ⟨_, _, -⟩ | ⟨_, _, h⟩
    · omega
    · omega
    · omega
    · obtain ⟨b, c, d, hbytes, hb, hc, hd, -⟩ := stepFour_eq_scalar_iff.mp h
      exact ⟨b, c, d, ⟨more, hbytes⟩, hb, hc, hd⟩
  · rintro ⟨b, c, d, ⟨more, hbytes⟩, hb, hc, hd⟩
    obtain ⟨s, hstep⟩ : ∃ s, stepFour lead (bytes ++ more) = .scalar s [] :=
      ⟨_, stepFour_eq_scalar_iff.mpr ⟨b, c, d, hbytes, hb, hc, hd, rfl⟩⟩
    exact ⟨more, s, step_eq_scalar_cases.mpr (.inr (.inr (.inr ⟨hlow, hhigh, hstep⟩)))⟩

/-- The second byte is one that may follow the lead byte, however many follow it. -/
theorem begins_second_iff {b : UInt8} (hlow : 0xE0 ≤ lead.toNat) (hhigh : lead.toNat < 0xF5) :
    Begins [lead, b] ↔ isSecond lead b = true := by
  by_cases h : lead.toNat < 0xF0
  · rw [begins_three_iff hlow h]
    constructor
    · rintro ⟨_, _, ⟨_, happend⟩, hb, -⟩
      cases happend
      exact hb
    · intro hb
      exact ⟨b, 0x80, ⟨[0x80], rfl⟩, hb, isContinuation_least⟩
  · rw [begins_four_iff (Nat.le_of_not_lt h) hhigh]
    constructor
    · rintro ⟨_, _, _, ⟨_, happend⟩, hb, -⟩
      cases happend
      exact hb
    · intro hb
      exact ⟨b, 0x80, 0x80, ⟨[0x80, 0x80], rfl⟩, hb, isContinuation_least, isContinuation_least⟩

/-- Every further byte continues the sequence. -/
theorem isContinuation_of_begins_third {b c : UInt8} (hlow : 0xE0 ≤ lead.toNat)
    (hhigh : lead.toNat < 0xF5) (h : Begins [lead, b, c]) : isContinuation c = true := by
  by_cases hlead : lead.toNat < 0xF0
  · obtain ⟨_, _, ⟨_, happend⟩, -, hc⟩ := (begins_three_iff hlow hlead).mp h
    cases happend
    exact hc
  · obtain ⟨_, _, _, ⟨_, happend⟩, -, hc, -⟩ :=
      (begins_four_iff (Nat.le_of_not_lt hlead) hhigh).mp h
    cases happend
    exact hc

/-! ## 3. Where a step stops -/

/-- A part ends where the next byte, if there is one, would lead out of every sequence. -/
structure EndsAt (part rest : List UInt8) : Prop where
  begins : part.length = 1 ∨ Begins part
  next : ∀ b ∈ rest.head?, ¬ Begins (part ++ [b])

/-- What is longer than such a part contains the next byte. -/
theorem EndsAt.longest (h : EndsAt part rest) {longer : List UInt8}
    (hlonger : longer <+: part ++ rest)
    (hbegins : Begins longer) : longer.length ≤ part.length := by
  refine Nat.le_of_not_lt fun hlt => ?_
  rcases rest with _ | ⟨b, rest⟩
  · have := hlonger.length_le
    simp only [List.append_nil] at this
    omega
  · have hprefix : part ++ [b] <+: part ++ b :: rest := ⟨rest, by simp⟩
    have hlength : (part ++ [b]).length ≤ longer.length := by
      rw [List.length_append, List.length_singleton]
      omega
    exact h.next b rfl (hbegins.of_prefix (List.prefix_of_prefix_length_le hprefix hlonger hlength))

/-- There is no next byte. -/
theorem EndsAt.of_nil (h : part.length = 1 ∨ Begins part) : EndsAt part [] := ⟨h, by simp⟩

/-- The byte behind the lead byte is none that may come second. -/
theorem EndsAt.of_not_second {b : UInt8} (hlow : 0xE0 ≤ lead.toNat) (hhigh : lead.toNat < 0xF5)
    (hb : ¬ isSecond lead b = true) (rest : List UInt8) : EndsAt [lead] (b :: rest) := by
  refine ⟨.inl rfl, fun d hd hbegins => hb ?_⟩
  cases hd
  exact (begins_second_iff hlow hhigh).mp hbegins

/-- The byte behind the second does not continue the sequence. -/
theorem EndsAt.of_not_third {b c : UInt8} (hlow : 0xE0 ≤ lead.toNat) (hhigh : lead.toNat < 0xF5)
    (hb : isSecond lead b = true) (hc : ¬ isContinuation c = true) (rest : List UInt8) :
    EndsAt [lead, b] (c :: rest) := by
  refine ⟨.inr ((begins_second_iff hlow hhigh).mpr hb), fun d hd hbegins => hc ?_⟩
  cases hd
  exact isContinuation_of_begins_third hlow hhigh hbegins

theorem exists_endsAt_stepTwo (hlow : 0xC2 ≤ lead.toNat) (hhigh : lead.toNat < 0xE0)
    (h : stepTwo lead bytes = .defect rest) :
    ∃ taken, bytes = taken ++ rest ∧ EndsAt (lead :: taken) rest := by
  unfold stepTwo at h
  split at h
  · next b _ =>
    split at h
    · cases h
    · next hb =>
      cases h
      refine ⟨[], rfl, .inl rfl, fun c hc hbegins => hb ?_⟩
      cases hc
      obtain ⟨_, ⟨_, happend⟩, hcontinued⟩ := (begins_two_iff hlow hhigh).mp hbegins
      cases happend
      exact hcontinued
  · cases h
    exact ⟨[], rfl, .of_nil (.inl rfl)⟩

theorem exists_endsAt_stepThree (hlow : 0xE0 ≤ lead.toNat) (hhigh : lead.toNat < 0xF5)
    (h : stepThree lead bytes = .defect rest) :
    ∃ taken, bytes = taken ++ rest ∧ EndsAt (lead :: taken) rest := by
  unfold stepThree at h
  split at h
  · next b c _ =>
    split at h
    · next hb =>
      split at h
      · cases h
      · next hc =>
        cases h
        exact ⟨[b], rfl, .of_not_third hlow hhigh hb hc _⟩
    · next hb =>
      cases h
      exact ⟨[], rfl, .of_not_second hlow hhigh hb _⟩
  · next b =>
    split at h
    · next hb =>
      cases h
      exact ⟨[b], rfl, .of_nil (.inr ((begins_second_iff hlow hhigh).mpr hb))⟩
    · next hb =>
      cases h
      exact ⟨[], rfl, .of_not_second hlow hhigh hb _⟩
  · cases h
    exact ⟨[], rfl, .of_nil (.inl rfl)⟩

theorem exists_endsAt_stepFour (hlow : 0xF0 ≤ lead.toNat) (hhigh : lead.toNat < 0xF5)
    (h : stepFour lead bytes = .defect rest) :
    ∃ taken, bytes = taken ++ rest ∧ EndsAt (lead :: taken) rest := by
  have hlow' : 0xE0 ≤ lead.toNat := by omega
  have hthird {b c : UInt8} (hb : isSecond lead b = true) (hc : isContinuation c = true) :
      Begins [lead, b, c] :=
    (begins_four_iff hlow hhigh).mpr ⟨b, c, 0x80, ⟨[0x80], rfl⟩, hb, hc, isContinuation_least⟩
  unfold stepFour at h
  split at h
  · next b c d _ =>
    split at h
    · next hb =>
      split at h
      · next hc =>
        split at h
        · cases h
        · next hd =>
          cases h
          refine ⟨[b, c], rfl, .inr (hthird hb hc), fun e he hbegins => hd ?_⟩
          cases he
          obtain ⟨_, _, _, ⟨_, happend⟩, -, -, hcontinued⟩ :=
            (begins_four_iff hlow hhigh).mp hbegins
          cases happend
          exact hcontinued
      · next hc =>
        cases h
        exact ⟨[b], rfl, .of_not_third hlow' hhigh hb hc _⟩
    · next hb =>
      cases h
      exact ⟨[], rfl, .of_not_second hlow' hhigh hb _⟩
  · next b c =>
    split at h
    · next hb =>
      split at h
      · next hc =>
        cases h
        exact ⟨[b, c], rfl, .of_nil (.inr (hthird hb hc))⟩
      · next hc =>
        cases h
        exact ⟨[b], rfl, .of_not_third hlow' hhigh hb hc _⟩
    · next hb =>
      cases h
      exact ⟨[], rfl, .of_not_second hlow' hhigh hb _⟩
  · next b =>
    split at h
    · next hb =>
      cases h
      exact ⟨[b], rfl, .of_nil (.inr ((begins_second_iff hlow' hhigh).mpr hb))⟩
    · next hb =>
      cases h
      exact ⟨[], rfl, .of_not_second hlow' hhigh hb _⟩
  · cases h
    exact ⟨[], rfl, .of_nil (.inl rfl)⟩

/-- Lead bytes of no sequence are taken alone, those of a sequence with what may follow them. -/
theorem step_eq_defect_cases : step lead bytes = .defect rest →
    (0x80 ≤ lead.toNat ∧ (lead.toNat < 0xC2 ∨ 0xF5 ≤ lead.toNat) ∧ bytes = rest) ∨
    (0xC2 ≤ lead.toNat ∧ lead.toNat < 0xE0 ∧ stepTwo lead bytes = .defect rest) ∨
    (0xE0 ≤ lead.toNat ∧ lead.toNat < 0xF0 ∧ stepThree lead bytes = .defect rest) ∨
    (0xF0 ≤ lead.toNat ∧ lead.toNat < 0xF5 ∧ stepFour lead bytes = .defect rest) := by
  have h80 : lead < 0x80 ↔ lead.toNat < 0x80 := UInt8.lt_iff_toNat_lt
  have hC2 : lead < 0xC2 ↔ lead.toNat < 0xC2 := UInt8.lt_iff_toNat_lt
  have hE0 : lead < 0xE0 ↔ lead.toNat < 0xE0 := UInt8.lt_iff_toNat_lt
  have hF0 : lead < 0xF0 ↔ lead.toNat < 0xF0 := UInt8.lt_iff_toNat_lt
  have hF5 : lead < 0xF5 ↔ lead.toNat < 0xF5 := UInt8.lt_iff_toNat_lt
  fun_cases step lead bytes <;> grind

/-- **A step that finds a defect takes the longest part that belongs to one.** -/
theorem exists_isDefect_of_step (h : step lead bytes = .defect rest) :
    ∃ part, lead :: bytes = part ++ rest ∧ IsDefect part rest := by
  have hends : ∃ taken, bytes = taken ++ rest ∧ EndsAt (lead :: taken) rest := by
    rcases step_eq_defect_cases h with
      ⟨hlow, hstray, rfl⟩ | ⟨hlow, hhigh, h⟩ | ⟨hlow, hhigh, h⟩ | ⟨hlow, hhigh, h⟩
    · exact ⟨[], rfl, .inl rfl, fun b _ => not_begins_of_stray hlow hstray⟩
    · exact exists_endsAt_stepTwo hlow hhigh h
    · exact exists_endsAt_stepThree hlow (by omega) h
    · exact exists_endsAt_stepFour hlow hhigh h
  obtain ⟨taken, rfl, hends⟩ := hends
  refine ⟨lead :: taken, rfl, by simp, fun s => ?_, hends.begins, fun _ => hends.longest⟩
  rintro ⟨others, hothers⟩
  have hscalar : step lead (taken ++ rest) = .scalar s others :=
    step_eq_scalar_of_append hothers.symm
  rw [h] at hscalar
  cases hscalar

/-- Of two parts that are both the longest, neither is longer. -/
theorem IsDefect.unique (h : IsDefect part rest) (h' : IsDefect part' rest')
    (happend : part ++ rest = part' ++ rest') : part = part' ∧ rest = rest' := by
  have hle {p r q u : List UInt8} (hp : IsDefect p r) (hq : IsDefect q u) (heq : p ++ r = q ++ u) :
      p.length ≤ q.length := by
    rcases hp.begins with hone | hbegins
    · rw [hone]
      exact List.length_pos_iff.mpr hq.ne_nil
    · exact hq.longest p (heq ▸ List.prefix_append p r) hbegins
  exact List.append_inj happend (Nat.le_antisymm (hle h h' happend) (hle h' h happend.symm))

theorem step_eq_defect_of_isDefect (h : IsDefect part rest)
    (happend : lead :: bytes = part ++ rest) :
    step lead bytes = .defect rest := by
  rcases hstep : step lead bytes with ⟨s, others⟩ | others
  · refine absurd ⟨others, ?_⟩ (h.no_scalar s)
    rw [← step_eq_scalar_iff.mp hstep, happend]
  · obtain ⟨part', happend', h'⟩ := exists_isDefect_of_step hstep
    obtain ⟨-, rfl⟩ := h.unique h' (happend ▸ happend')
    rfl

/-! ## 4. All bytes -/

theorem mends_scalars (bytes : List UInt8) : Mends bytes (scalars bytes) := by
  fun_induction scalars bytes with
  | case1 => exact .nil
  | case2 lead bytes s rest hstep _ ih =>
    rw [step_eq_scalar_iff.mp hstep]
    exact .scalar s ih
  | case3 lead bytes rest hstep _ ih =>
    obtain ⟨part, happend, hdefect⟩ := exists_isDefect_of_step hstep
    rw [happend]
    exact .defect hdefect ih

/-- **A forgiving decoder answers what the rule says**, and the rule says no more than one thing. -/
theorem scalars_eq_iff : scalars bytes = cs ↔ Mends bytes cs := by
  constructor
  · rintro rfl
    exact mends_scalars bytes
  · intro h
    induction h with
    | nil => simp [scalars]
    | @scalar s rest cs _ ih =>
      obtain ⟨lead, after, hencode⟩ :=
        List.exists_cons_of_ne_nil (String.utf8EncodeChar_ne_nil (c := s))
      have hstep : step lead (after ++ rest) = .scalar s rest := by
        rw [step_eq_scalar_iff, hencode, List.cons_append]
      rw [hencode, List.cons_append, scalars]
      split <;> simp_all
    | @defect part rest cs hdefect _ ih =>
      obtain ⟨lead, taken, rfl⟩ := List.exists_cons_of_ne_nil hdefect.ne_nil
      have hstep := step_eq_defect_of_isDefect hdefect rfl
      rw [List.cons_append, scalars]
      split <;> simp_all

end ServerDiscovery.Utf8
