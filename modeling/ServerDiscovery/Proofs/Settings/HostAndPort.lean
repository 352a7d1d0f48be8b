import ServerDiscovery.Proofs.Decimal.Numeral
import ServerDiscovery.Settings.Limits

/-! # Texts that name a host and a port

A text is split at its last colon, which a reader finds from behind.
`splitAtLastColon?_eq_some_iff` says the same from the front: the port is what has no colon in it.
So hosts may hold colons, and an address of sixteen octets is read as it should be.
-/

namespace ServerDiscovery

variable {text host port : String} {cs before after : List Char} {c : Char}

/-- The text is a host that is not empty, a colon, and a port. -/
def NamesHostAndPort (text : String) : Prop :=
  ∃ host port, text = host ++ ":" ++ port ∧ host ≠ "" ∧ ':' ∉ port.toList ∧
    ∃ n, Numeral.Names 65535 port n

/-- What stops a reader that passes over characters is none of them. -/
theorem not_of_drop_takeWhile {p : Char → Bool} (h : cs.drop (cs.takeWhile p).length = c :: after) :
    p c = false := by
  induction cs with
  | nil => cases h
  | cons d cs ih =>
    by_cases hd : p d = true
    · rw [List.takeWhile_cons_of_pos hd, List.length_cons, List.drop_succ_cons] at h
      exact ih h
    · rw [List.takeWhile_cons_of_neg hd] at h
      cases h
      exact Bool.eq_false_iff.mpr hd

/-- The characters in front of the first colon, and the colon. -/
theorem takeWhile_ne_colon_iff :
    (cs.takeWhile (· ≠ ':') = before ∧ ∃ c, cs.drop before.length = c :: after) ↔
      cs = before ++ ':' :: after ∧ ':' ∉ before := by
  constructor
  · rintro ⟨rfl, c, hdrop⟩
    have hc : c = ':' := by simpa using not_of_drop_takeWhile hdrop
    have hsplit := List.prefix_iff_eq_append.mp (List.takeWhile_prefix (l := cs) (· ≠ ':'))
    rw [hdrop, hc] at hsplit
    refine ⟨hsplit.symm, fun hmem => ?_⟩
    simpa using List.mem_takeWhile_imp hmem
  · rintro ⟨rfl, hcolon⟩
    have hbefore : (before ++ ':' :: after).takeWhile (· ≠ ':') = before := by
      rw [List.takeWhile_append_of_pos]
      · simp
      · intro d hd
        exact decide_eq_true fun heq => hcolon (heq ▸ hd)
    exact ⟨hbefore, ':', List.drop_left⟩

/-- A text is split at the colon behind which there is no other. -/
theorem splitAtLastColon?_eq_some_iff :
    splitAtLastColon? text = some (host, port) ↔
      text = host ++ ":" ++ port ∧ ':' ∉ port.toList := by
  have hcolon : ":".toList = [':'] := rfl
  rw [← String.toList_inj, String.toList_append, String.toList_append, hcolon]
  have hfirst : splitAtLastColon? text = some (host, port) ↔
      text.toList.reverse.takeWhile (· ≠ ':') = port.toList.reverse ∧
        ∃ c, text.toList.reverse.drop port.toList.reverse.length = c :: host.toList.reverse := by
    unfold splitAtLastColon?
    constructor
    · intro h
      dsimp only at h
      split at h
      · cases h
      · next c reversedHost hdrop =>
        cases h
        simp only [String.toList_ofList, List.reverse_reverse]
        exact ⟨trivial, c, hdrop⟩
    · rintro ⟨hport, c, hdrop⟩
      dsimp only
      rw [hport, hdrop]
      simp
  rw [hfirst, takeWhile_ne_colon_iff, ← List.reverse_inj, List.reverse_reverse]
  simp

/-- **A text is accepted exactly if it names a host and a port.** -/
theorem isHostAndPort_iff : isHostAndPort text = true ↔ NamesHostAndPort text := by
  unfold isHostAndPort NamesHostAndPort
  constructor
  · intro h
    split at h
    · next host port hsplit =>
      obtain ⟨htext, hport⟩ := splitAtLastColon?_eq_some_iff.mp hsplit
      rw [Bool.and_eq_true, Bool.not_eq_true', Option.isSome_iff_exists] at h
      obtain ⟨hhost, n, hn⟩ := h
      refine ⟨host, port, htext, ?_, hport, n, Numeral.unsigned?_eq_some_iff.mp hn⟩
      rintro rfl
      cases hhost
    · cases h
  · rintro ⟨host, port, htext, hhost, hport, n, hn⟩
    rw [splitAtLastColon?_eq_some_iff.mpr ⟨htext, hport⟩]
    simp [Numeral.unsigned?_eq_some_iff.mpr hn, hhost]

instance (text : String) : Decidable (NamesHostAndPort text) :=
  decidable_of_iff _ isHostAndPort_iff

end ServerDiscovery
