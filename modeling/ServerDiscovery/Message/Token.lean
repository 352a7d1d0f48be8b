import ServerDiscovery.Datagram.Layout

/-! # Token responses

A token response repeats the client's half of the token and adds the server's.
`parseToken?_tokenResponse` says that a client reads back both halves.
-/

namespace ServerDiscovery

/-- The datagram that grants a token. -/
def tokenResponse (token : Token) : Bytes :=
  [controlFlag, 0, 0] ++ token.client.toBytes ++ [tokenMessage] ++ token.server.toBytes

/-- The token that a datagram grants: it has the size of a token response, the control flag and the
token message, and whatever else. -/
def parseToken? : Bytes → Option Token
  | [flag, _, _, c₀, c₁, c₂, c₃, message, s₀, s₁, s₂, s₃] =>
    if flag = controlFlag ∧ message = tokenMessage then some ⟨⟨c₀, c₁, c₂, c₃⟩, ⟨s₀, s₁, s₂, s₃⟩⟩
    else none
  | _ => none

/-- A datagram that grants a token states the client's half at offset 3. -/
theorem client_of_parseToken? {datagram : Bytes} {token : Token}
    (h : parseToken? datagram = some token) :
    (datagram.drop 3).take 4 = token.client.toBytes := by
  unfold parseToken? at h
  split at h
  · split at h
    · cases h
      rfl
    · cases h
  · cases h

/-- A datagram that grants a token has the size of a token response. -/
theorem length_of_parseToken? {datagram : Bytes} {token : Token}
    (h : parseToken? datagram = some token) : datagram.length = tokenResponseSize := by
  unfold parseToken? at h
  split at h
  · rfl
  · cases h

/-- A datagram of the size of a token response grants no token only if its flag or its message is
wrong. -/
theorem parseToken?_eq_none_iff {datagram : Bytes} (h : datagram.length = tokenResponseSize) :
    parseToken? datagram = none ↔
      datagram[0]? ≠ some controlFlag ∨ datagram[7]? ≠ some tokenMessage := by
  match datagram, h with
  | [flag, _, _, _, _, _, _, message, _, _, _, _], _ =>
    by_cases hflag : flag = controlFlag <;> by_cases hmessage : message = tokenMessage <;>
      simp [parseToken?, hflag, hmessage]

theorem parseToken?_tokenResponse (token : Token) :
    parseToken? (tokenResponse token) = some token := rfl

end ServerDiscovery
