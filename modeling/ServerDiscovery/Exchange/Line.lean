import ServerDiscovery.Exchange.Handshake

/-! # Lines to a peer

A peer is given by how it reacts to a datagram.  A line carries datagrams to a peer and brings back
what the peer sends, each after a delay of its own; what is not received in one attempt stays on its
way.  `Line.transport` is the channel that a client has at its end of the line.
-/

namespace ServerDiscovery

/-- Something that a peer sends. -/
structure Arrival where
  /-- The time from the datagram that it reacts to until it arrives. -/
  delay : Duration
  /-- A datagram, or a failure of the channel. -/
  content : Except IoError Bytes

/-- What becomes of a datagram that is sent to a peer. -/
inductive Reaction where
  /-- It reaches the peer, which sends something. -/
  | answer (arrivals : List Arrival)
  /-- Only `written` bytes of it go out. -/
  | short (written : Nat)
  /-- It does not go out. -/
  | refuse (error : IoError)

instance : Inhabited Reaction := ⟨.answer []⟩

/-- Two reactions to the same datagram.  A datagram that does not go out as a whole gets no
answer. -/
def Reaction.and : Reaction → Reaction → Reaction
  | .answer first, .answer second => .answer (first ++ second)
  | .answer _, second => second
  | first, _ => first

/-- A line to a peer with states of type `ρ`. -/
structure Line (ρ : Type) where
  peer : ρ
  /-- What is on its way, and when it arrives, in the order in which it was sent. -/
  pending : List (Instant × Except IoError Bytes) := []

namespace Line

/-- The first of the earliest, and all others in order. -/
def earliest? : List (Instant × α) → Option ((Instant × α) × List (Instant × α))
  | [] => none
  | a :: rest =>
    match earliest? rest with
    | some (b, others) => if b.1 < a.1 then some (b, a :: others) else some (a, rest)
    | none => some (a, rest)

/-- Send a datagram to a peer that reacts in the given way. -/
def send (react : ρ → Bytes → Reaction × ρ) (line : Line ρ) (now : Instant) (datagram : Bytes) :
    Except IoError Nat × Line ρ :=
  let (reaction, peer) := react line.peer datagram
  let line := { line with peer }
  match reaction with
  | .answer arrivals =>
    (.ok datagram.length,
      { line with
        pending := line.pending ++ arrivals.map fun a => (now + a.delay.nanos, a.content) })
  | .short written => (.ok written, line)
  | .refuse e => (.error e, line)

/-- Wait for something from the peer. -/
def receive (line : Line ρ) (now deadline : Instant) (size : Nat) : Reception (Line ρ) :=
  match earliest? line.pending with
  | some ((time, content), others) =>
    if time ≤ deadline then
      { outcome := (content.map (·.take size)).mapError .refused, now := max now time,
        state := { line with pending := others } }
    else { outcome := .error .silence, now := deadline, state := line }
  | none => { outcome := .error .silence, now := deadline, state := line }

/-- The client's end of a line to a peer that reacts in the given way. -/
def transport (react : ρ → Bytes → Reaction × ρ) : Transport (Line ρ) := ⟨send react, receive⟩

/-- A line keeps what every channel keeps. -/
theorem lawful_transport (react : ρ → Bytes → Reaction × ρ) : (transport react).Lawful where
  length_le {s now deadline size d} h := by
    simp only [transport, receive] at h
    (repeat' split at h) <;> try simp at h
    rename_i content _ _ _
    cases content with
    | error e =>
      change Except.error (ReceiveFailure.refused e) = Except.ok d at h
      cases h
    | ok bytes =>
      obtain rfl : bytes.take size = d := Except.ok.inj h
      exact List.length_take_le ..
  now_le {s now deadline size} h := by
    simp only [transport, receive]
    (repeat' split) <;> first | exact h | exact Nat.le_max_left ..
  le_deadline {s now deadline size} h := by
    simp only [transport, receive]
    (repeat' split) <;> first | exact Nat.le_refl _ | exact Nat.max_le.2 ⟨h, by assumption⟩

end Line

end ServerDiscovery
