import Mathlib.Data.List.TakeWhile
import ServerDiscovery.Decimal.Numeral

/-! # Which texts name a number

A reader takes digits as far as they go and judges them afterwards.  `Names` says without a reader
what the judgement comes to for a whole text: digits and nothing else, after a plus sign if there is
one, with a value within the limit.  `unsigned?_eq_some_iff` says that the reader finds this number,
and none in any other text.
-/

namespace ServerDiscovery.Numeral

variable {limit n : Nat} {text : String} {cs : List Char}

/-- A row of decimal digits with the value `n`, which is at most `limit`. -/
structure IsNumeral (limit : Nat) (digits : List Char) (n : Nat) : Prop where
  ne_nil : digits ≠ []
  isDecimal : ∀ c ∈ digits, '0' ≤ c ∧ c ≤ '9'
  value_eq : value 10 digits = n
  le_limit : n ≤ limit

/-- The text is a numeral, after a plus sign if there is one. -/
def Names (limit : Nat) (text : String) (n : Nat) : Prop :=
  ∃ digits, (text.toList = digits ∨ text.toList = '+' :: digits) ∧ IsNumeral limit digits n

theorem isSome_digit?_false_iff {c : Char} :
    (digit? false c).isSome = true ↔ '0' ≤ c ∧ c ≤ '9' := by
  unfold digit?
  split
  · next h => simp [h]
  · next h => simp [h]

/-- A reader that leaves nothing has taken everything. -/
theorem takeWhile_eq_self_of_drop_eq_nil {p : Char → Bool}
    (h : cs.drop (cs.takeWhile p).length = []) : cs.takeWhile p = cs := by
  have hprefix := List.takeWhile_prefix (l := cs) p
  exact hprefix.eq_of_length_le (List.drop_eq_nil_iff.mp h)

/-- Nothing is left behind a row of digits exactly if there are only digits. -/
theorem read?_eq_some_nil_iff : read? { limit } cs = some (n, []) ↔ IsNumeral limit cs n := by
  have hforall : (cs.takeWhile fun c => (digit? false c).isSome) = cs ↔
      ∀ c ∈ cs, '0' ≤ c ∧ c ≤ '9' := by
    simp only [List.takeWhile_eq_self_iff, isSome_digit?_false_iff]
  constructor
  · intro h
    simp only [read?, Bool.false_eq_true, if_false, Option.any_none] at h
    split at h
    · cases h
    · next hempty =>
      simp only [Bool.not_true, Bool.false_and, Bool.false_eq_true, if_false] at h
      split at h
      · cases h
      · next hlimit =>
        obtain ⟨hvalue, hdrop⟩ := Prod.mk.inj (Option.some.inj h)
        have hself := takeWhile_eq_self_of_drop_eq_nil hdrop
        rw [hself] at hvalue hempty hlimit
        refine ⟨by simpa using hempty, hforall.mp hself, hvalue, ?_⟩
        omega
  · rintro ⟨hne, hdecimal, rfl, hlimit⟩
    simp only [read?, Bool.false_eq_true, if_false, hforall.mpr hdecimal, Option.any_none]
    simp [hne, Nat.not_lt.mpr hlimit]

/-- Behind a plus sign the rest of the text is read. -/
theorem unsigned?_of_plus (h : text.toList = '+' :: cs) :
    unsigned? limit text = some n ↔ read? { limit } cs = some (n, []) := by
  unfold unsigned?
  rw [h]
  simp only
  split
  · next m hm => simp [hm]
  · next hnone =>
    constructor
    · intro hread
      cases hread
    · exact fun hread => absurd hread (hnone n)

/-- Without one the whole text is. -/
theorem unsigned?_of_not_plus (h : ∀ cs, text.toList ≠ '+' :: cs) :
    unsigned? limit text = some n ↔ read? { limit } text.toList = some (n, []) := by
  unfold unsigned?
  split
  · next cs hcs => exact absurd hcs (h cs)
  · simp only
    split
    · next m hm => simp [hm]
    · next hnone =>
      constructor
      · intro hread
        cases hread
      · exact fun hread => absurd hread (hnone n)

/-- **A reader of whole texts finds the number that a text names**, and none in any other text. -/
theorem unsigned?_eq_some_iff : unsigned? limit text = some n ↔ Names limit text n := by
  have hplus {cs : List Char} : ¬ IsNumeral limit ('+' :: cs) n := fun h =>
    absurd (h.isDecimal '+' List.mem_cons_self) (by decide)
  by_cases hsign : ∃ cs, text.toList = '+' :: cs
  · obtain ⟨cs, hcs⟩ := hsign
    rw [unsigned?_of_plus hcs, read?_eq_some_nil_iff]
    constructor
    · intro h
      exact ⟨cs, .inr hcs, h⟩
    · rintro ⟨digits, hdigits | hdigits, h⟩
      · rw [← hdigits, hcs] at h
        exact absurd h hplus
      · rw [hcs] at hdigits
        cases hdigits
        exact h
  · have hnone : ∀ cs, text.toList ≠ '+' :: cs := fun cs hcs => hsign ⟨cs, hcs⟩
    rw [unsigned?_of_not_plus hnone, read?_eq_some_nil_iff]
    constructor
    · intro h
      exact ⟨text.toList, .inl rfl, h⟩
    · rintro ⟨digits, hdigits | hdigits, h⟩
      · rw [hdigits]
        exact h
      · exact absurd hdigits (hnone digits)

end ServerDiscovery.Numeral
