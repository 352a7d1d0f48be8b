import ServerDiscovery.Exchange.Handshake
import ServerDiscovery.Settings.Basic

/-! # Datagrams that are cut to a buffer

Whoever receives gets no more of a datagram than the buffer holds.  The size of a datagram is part
of what it is: fewer than nine bytes are too few for a header, exactly twelve are a token response,
and seventeen are the fewest with a signature.  So a cut can turn one kind of datagram into another;
a buffer of twelve bytes makes a token response of every longer datagram.

`judgedAlike_take_iff` says which buffers do no such harm: those of at least nineteen bytes, which
hold a header, a signature and a server count.  The policy of a client has such a buffer, whatever
the settings ask for (`Settings.judgedAlike_cut`).
-/

namespace ServerDiscovery

variable {size n : Nat} {datagram : Bytes}

/-! ## 1. What a cut leaves as it is -/

theorem length_take_lt_iff (h : n ≤ size) :
    (datagram.take size).length < n ↔ datagram.length < n := by
  rw [List.length_take]
  omega

theorem length_take_eq_iff (h : n < size) :
    (datagram.take size).length = n ↔ datagram.length = n := by
  rw [List.length_take]
  omega

/-- A cut behind the signature leaves the signature. -/
theorem signatureOf_take (h : answerHeaderSize + signatureSize ≤ size) (datagram : Bytes) :
    signatureOf (datagram.take size) = signatureOf datagram := by
  rw [signatureOf, List.drop_take, List.take_take, Nat.min_eq_left (Nat.le_sub_of_add_le' h)]
  rfl

/-- A cut behind the signature leaves the front of the payload. -/
theorem payload_take (size : Nat) (datagram : Bytes) :
    payload (datagram.take size) =
      (payload datagram).take (size - (answerHeaderSize + signatureSize)) := List.drop_take ..

/-- **A cut behind the signature does not change what a datagram is.** -/
theorem classify_take (h : answerHeaderSize + signatureSize ≤ size) (datagram : Bytes) :
    classify (datagram.take size) = classify datagram := by
  have hheader : answerHeaderSize ≤ size := Nat.le_of_add_right_le h
  have htoken : tokenResponseSize < size := Nat.lt_of_lt_of_le (by decide) h
  unfold classify
  simp only [length_take_lt_iff hheader, length_take_eq_iff htoken, signatureOf_take h]

/-! ## 2. What the parties make of a datagram -/

/-- Neither the engine nor a reader of fixed size tells two datagrams apart: they are of the same
kind, accepted or rejected alike and for the same reason, and grant the same token or state the same
count. -/
structure JudgedAlike (received sent : Bytes) : Prop where
  classify_eq : classify received = classify sent
  acceptToken_eq : acceptToken received = acceptToken sent
  acceptAnswer_eq : ∀ query, acceptAnswer query received = acceptAnswer query sent
  parseToken?_eq : parseToken? received = parseToken? sent
  parseServerCount_eq : parseServerCount received = parseServerCount sent

theorem acceptToken_take (h : tokenResponseSize < size) (datagram : Bytes) :
    acceptToken (datagram.take size) = acceptToken datagram := by
  simp only [acceptToken, length_take_eq_iff h]

theorem expectKind_take (h : answerHeaderSize + signatureSize ≤ size) (kind : ReplyKind)
    (datagram : Bytes) : expectKind kind (datagram.take size) = expectKind kind datagram := by
  rw [expectKind, classify_take h]
  rfl

theorem acceptAnswer_take (h : answerHeaderSize + signatureSize ≤ size) (query : Query)
    (datagram : Bytes) :
    acceptAnswer query (datagram.take size) = acceptAnswer query datagram := by
  have hempty : (datagram.take size).isEmpty = datagram.isEmpty := by
    cases size with
    | zero => exact absurd h (by decide)
    | succ size => cases datagram <;> rfl
  rw [acceptAnswer, hempty, expectKind_take h]
  rfl

theorem parseToken?_take (h : tokenResponseSize < size) (datagram : Bytes) :
    parseToken? (datagram.take size) = parseToken? datagram := by
  have hnone {bytes : Bytes} (hlength : bytes.length ≠ tokenResponseSize) :
      parseToken? bytes = none :=
    Option.eq_none_iff_forall_ne_some.mpr fun token hread => hlength (length_of_parseToken? hread)
  by_cases hlength : datagram.length = tokenResponseSize
  · rw [List.take_of_length_le (hlength ▸ Nat.le_of_lt h)]
  · rw [hnone hlength, hnone fun hcut => hlength ((length_take_eq_iff h).mp hcut)]

/-- A server count is stated in the first two bytes of the payload. -/
theorem parseServerCount_take (h : minBufferSize ≤ size) (datagram : Bytes) :
    parseServerCount (datagram.take size) = parseServerCount datagram := by
  have hsignature : answerHeaderSize + signatureSize ≤ size := Nat.le_of_add_right_le h
  obtain ⟨room, hroom⟩ : ∃ room, size - (answerHeaderSize + signatureSize) = room + 2 :=
    ⟨size - minBufferSize, by unfold minBufferSize at *; omega⟩
  rw [parseServerCount, expectKind_take hsignature, payload_take, hroom, parseServerCount]
  rcases payload datagram with _ | ⟨high, _ | ⟨low, rest⟩⟩ <;> rfl

/-! ## 3. Which buffers are large enough -/

/-- An answer that states a server count and nothing else. -/
def countAnswer : Bytes :=
  List.replicate answerHeaderSize 0 ++ Query.serverCount.answerSignature ++ bigEndian16 7

/-- **A buffer is large enough exactly if it holds a server count.**  In a smaller one that answer
is cut. -/
theorem judgedAlike_take_iff :
    (∀ datagram : Bytes, JudgedAlike (datagram.take size) datagram) ↔ minBufferSize ≤ size := by
  constructor
  · intro h
    have hcount : parseServerCount (countAnswer.take size) = .ok 7 :=
      (h countAnswer).parseServerCount_eq
    have hcut : ∀ small < minBufferSize, parseServerCount (countAnswer.take small) ≠ .ok 7 := by
      decide
    exact Nat.not_lt.mp fun hsmall => hcut size hsmall hcount
  · intro h datagram
    have hsignature : answerHeaderSize + signatureSize ≤ size := Nat.le_of_add_right_le h
    have htoken : tokenResponseSize < size := Nat.lt_of_lt_of_le (by decide) h
    exact
      { classify_eq := classify_take hsignature datagram
        acceptToken_eq := acceptToken_take htoken datagram
        acceptAnswer_eq := fun query => acceptAnswer_take hsignature query datagram
        parseToken?_eq := parseToken?_take htoken datagram
        parseServerCount_eq := parseServerCount_take h datagram }

/-- The buffer of a policy is as large as the settings ask for, unless that is too small. -/
theorem Settings.toNat_maxResponseSize (s : Settings) :
    s.policy.maxResponseSize.toNat = max s.transport.maxBufferSize.toNat minBufferSize := by
  have hmax : s.policy.maxResponseSize =
      if s.transport.maxBufferSize ≤ UInt64.ofNat minBufferSize then UInt64.ofNat minBufferSize
      else s.transport.maxBufferSize := rfl
  rw [hmax]
  split
  · next hsmall => exact (Nat.max_eq_right (UInt64.le_iff_toNat_le.mp hsmall)).symm
  · next hlarge =>
    have hlt := UInt64.lt_iff_toNat_lt.mp (UInt64.not_le.mp hlarge)
    exact (Nat.max_eq_left (Nat.le_of_lt hlt)).symm

/-- A policy never has a smaller buffer, whatever the settings ask for. -/
theorem Settings.minBufferSize_le (s : Settings) :
    minBufferSize ≤ s.policy.maxResponseSize.toNat := by
  rw [s.toNat_maxResponseSize]
  exact Nat.le_max_right ..

/-- **The receive buffer never changes what a datagram is**, nor what the parties make of it.  It
would, if it were a byte smaller than the smallest that any settings lead to. -/
theorem Settings.judgedAlike_cut :
    (∀ (s : Settings) (datagram : Bytes),
      JudgedAlike (datagram.take s.policy.maxResponseSize.toNat) datagram) ∧
    (∃ s : Settings, s.policy.maxResponseSize.toNat = minBufferSize) ∧
    ∀ size < minBufferSize, ∃ datagram : Bytes, ¬ JudgedAlike (datagram.take size) datagram := by
  refine ⟨fun s datagram => judgedAlike_take_iff.mpr s.minBufferSize_le datagram, ?_, ?_⟩
  · exact ⟨{ transport := { maxBufferSize := 0 } }, rfl⟩
  · intro size hsmall
    exact Classical.not_forall.mp fun hall => Nat.not_le.mpr hsmall (judgedAlike_take_iff.mp hall)

/-- Settings that ask for a buffer of the size of a token response do not get it. -/
theorem Settings.judgedAlike_cut_twelve :
    (12 < minBufferSize) ∧
    JudgedAlike
      (countAnswer.take
        (Settings.policy { transport := { maxBufferSize := 12 } }).maxResponseSize.toNat)
      countAnswer ∧
    ∃ datagram : Bytes, ¬ JudgedAlike (datagram.take 12) datagram := by
  obtain ⟨hpolicy, -, hsmaller⟩ := Settings.judgedAlike_cut
  exact ⟨by decide, hpolicy { transport := { maxBufferSize := 12 } } countAnswer,
    hsmaller 12 (by decide)⟩

end ServerDiscovery
