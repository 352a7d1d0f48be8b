import Mathlib.Data.List.Basic
import ServerDiscovery.Error

/-! # Server lists are read back, and nothing is read twice

An entry of a list has the octets of a host and a port.  Every eighteen bytes are the entry of
exactly one address that a list can name (`SocketAddress.Listable`): the host of four octets, if the
octets are those of a mapped host, and else the host of sixteen.  So whole entries are the entries
of one list of addresses, no more and no less (`exists_entries`), and reading and writing undo each
other.

`parseServerList_bijective` says this of messages.  Two consequences are stated with it: messages
with different entries never name the same list, and no server is named by two different addresses.
-/

namespace ServerDiscovery

variable {ip : Ipv6} {v4 : Ipv4} {port : UInt16} {address : SocketAddress} {bytes : Bytes}
  {servers : List SocketAddress} {message : Bytes}

/-! ## 1. Mapped hosts -/

/-- A host that stands for a host of four octets is the one that was made for it. -/
theorem Ipv6.eq_ofIpv4_of_toIpv4? (h : ip.toIpv4? = some v4) : ip = Ipv6.ofIpv4 v4 := by
  rcases ip with ⟨octets, hlength⟩
  unfold Ipv6.toIpv4? at h
  split at h
  · next hhead =>
    split at h
    · next a b c d htail =>
      cases h
      have hoctets : octets = mappedHead ++ [a, b, c, d] := by
        rw [← List.take_append_drop 12 octets, ← hhead, ← htail]
      subst hoctets
      rfl
    · cases h
  · cases h

/-! ## 2. Entries -/

/-- An address that a list can name: a mapped host is named by its four octets, and no link is
named. -/
def SocketAddress.Listable : SocketAddress → Prop
  | .v4 _ _ => True
  | .v6 ip _ scope => ip.toIpv4? = none ∧ scope = 0

instance : DecidablePred SocketAddress.Listable
  | .v4 _ _ => inferInstanceAs (Decidable True)
  | .v6 ip _ scope => inferInstanceAs (Decidable (ip.toIpv4? = none ∧ scope = 0))

/-- What an entry names can be listed. -/
theorem SocketAddress.listable_ofEntry (ip : Ipv6) (port : UInt16) :
    (SocketAddress.ofEntry ip port).Listable := by
  unfold SocketAddress.ofEntry
  split
  · trivial
  · next h => exact ⟨h, rfl⟩

/-- What an entry names has that entry. -/
theorem SocketAddress.toEntry_ofEntry (ip : Ipv6) (port : UInt16) :
    (SocketAddress.ofEntry ip port).toEntry = ip.octets ++ bigEndian16 port := by
  unfold SocketAddress.ofEntry
  split
  · next h =>
    rw [Ipv6.eq_ofIpv4_of_toIpv4? h]
    rfl
  · rfl

/-- Whatever can be listed is named by an entry. -/
theorem SocketAddress.Listable.exists_ofEntry (h : address.Listable) :
    ∃ ip port, SocketAddress.ofEntry ip port = address := by
  cases address with
  | v4 v4 port => exact ⟨Ipv6.ofIpv4 v4, port, rfl⟩
  | v6 ip port scope =>
    obtain ⟨hunmapped, rfl⟩ := h
    refine ⟨ip, port, ?_⟩
    rw [SocketAddress.ofEntry, hunmapped]

theorem SocketAddress.length_toEntry (address : SocketAddress) :
    address.toEntry.length = entrySize := by
  cases address with
  | v4 v4 port => rfl
  | v6 ip port scope =>
    rw [SocketAddress.toEntry, List.length_append, ip.length_octets]
    rfl

/-- Entries in a row are as long as their number says. -/
theorem length_flatMap_toEntry (servers : List SocketAddress) :
    (servers.flatMap SocketAddress.toEntry).length = servers.length * entrySize := by
  induction servers with
  | nil => rfl
  | cons address servers ih =>
    rw [List.flatMap_cons, List.length_append, ih, address.length_toEntry, List.length_cons,
      Nat.succ_mul, Nat.add_comm]

/-! ## 3. Entries in a row -/

/-- The entry at the front is read first. -/
theorem readEntries_entry_append (ip : Ipv6) (port : UInt16) (rest : Bytes) :
    readEntries (ip.octets ++ bigEndian16 port ++ rest) =
      SocketAddress.ofEntry ip port :: readEntries rest := by
  have hport := ofBigEndian16_bigEndian16 port
  match ip with
  | ⟨[_, _, _, _, _, _, _, _, _, _, _, _, _, _, _, _], _⟩ =>
    simp only [bigEndian16, List.cons_append, List.nil_append, readEntries, hport]

/-- Entries of addresses that can be listed are read back. -/
theorem readEntries_flatMap_toEntry (h : ∀ a ∈ servers, a.Listable) :
    readEntries (servers.flatMap SocketAddress.toEntry) = servers := by
  induction servers with
  | nil => rfl
  | cons address servers ih =>
    obtain ⟨haddress, hservers⟩ := List.forall_mem_cons.mp h
    obtain ⟨ip, port, rfl⟩ := haddress.exists_ofEntry
    rw [List.flatMap_cons, SocketAddress.toEntry_ofEntry, readEntries_entry_append, ih hservers]

/-- Eighteen bytes are an entry. -/
theorem exists_entry_append (h : entrySize ≤ bytes.length) :
    ∃ ip port rest, bytes = Ipv6.octets ip ++ bigEndian16 port ++ rest := by
  have hoctets : (bytes.take 16).length = 16 := by
    rw [List.length_take]
    exact Nat.min_eq_left (Nat.le_trans (by decide) h)
  obtain ⟨high, low, hport⟩ : ∃ high low, (bytes.drop 16).take 2 = [high, low] := by
    rw [← List.length_eq_two, List.length_take, List.length_drop]
    have : 18 ≤ bytes.length := h
    omega
  refine ⟨⟨bytes.take 16, hoctets⟩, ofBigEndian16 high low, (bytes.drop 16).drop 2, ?_⟩
  rw [bigEndian16_ofBigEndian16, ← hport, List.append_assoc, List.take_append_drop,
    List.take_append_drop]

/-- **Whole entries are the entries of a list of addresses.** -/
theorem exists_entries (h : entrySize ∣ bytes.length) :
    ∃ servers : List SocketAddress, (∀ a ∈ servers, a.Listable) ∧
      servers.flatMap SocketAddress.toEntry = bytes := by
  obtain ⟨count, hcount⟩ := h
  induction count generalizing bytes with
  | zero => exact ⟨[], by simp, (List.eq_nil_of_length_eq_zero hcount).symm⟩
  | succ count ih =>
    have hlong : entrySize ≤ bytes.length := by
      rw [hcount]
      exact Nat.le_mul_of_pos_right _ (Nat.succ_pos count)
    obtain ⟨ip, port, rest, rfl⟩ := exists_entry_append hlong
    have hrest : rest.length = entrySize * count := by
      rw [← SocketAddress.toEntry_ofEntry, List.length_append, SocketAddress.length_toEntry,
        Nat.mul_succ, Nat.add_comm] at hcount
      exact Nat.add_right_cancel hcount
    obtain ⟨servers, hservers, rfl⟩ := ih hrest
    refine ⟨.ofEntry ip port :: servers,
      List.forall_mem_cons.mpr ⟨SocketAddress.listable_ofEntry ip port, hservers⟩, ?_⟩
    rw [List.flatMap_cons, SocketAddress.toEntry_ofEntry]

/-- Two addresses that can be listed have different entries. -/
theorem SocketAddress.Listable.eq_of_toEntry {other : SocketAddress} (h : address.Listable)
    (hother : other.Listable) (heq : address.toEntry = other.toEntry) : address = other := by
  have hread : readEntries (address.toEntry ++ []) = [address] :=
    readEntries_flatMap_toEntry (List.forall_mem_singleton.mpr h)
  have hreadOther : readEntries (other.toEntry ++ []) = [other] :=
    readEntries_flatMap_toEntry (List.forall_mem_singleton.mpr hother)
  rw [heq, hreadOther] at hread
  exact (List.singleton_inj.mp hread).symm

/-! ## 4. Messages -/

/-- A message that holds a server list: it is of that kind, and its payload is whole entries. -/
def IsServerList (message : Bytes) : Prop :=
  classify message = .ok (.answer .serverList) ∧ entrySize ∣ (payload message).length

/-- What is read from a message that holds a list, and from no other. -/
theorem parseServerList_eq_ok_iff :
    parseServerList message = .ok servers ↔
      IsServerList message ∧ readEntries (payload message) = servers := by
  unfold parseServerList
  split
  · next e hkind =>
    refine iff_of_false nofun fun h => ?_
    rw [expectKind_eq_ok_iff.mpr h.1.1] at hkind
    cases hkind
  · next hkind =>
    have hkind := expectKind_eq_ok_iff.mp hkind
    rw [IsServerList, Nat.dvd_iff_mod_eq_zero]
    split
    · next hwhole => simp [hkind, hwhole]
    · next hragged => simp [hragged]

/-- A message that holds no list has a fault. -/
theorem exists_parseServerList_eq_error_iff (message : Bytes) :
    (∃ fault, parseServerList message = .error fault) ↔ ¬ IsServerList message := by
  have hread : (∃ servers, parseServerList message = .ok servers) ↔ IsServerList message := by
    simp [parseServerList_eq_ok_iff]
  rw [← hread]
  cases parseServerList message with
  | error fault => simp
  | ok servers => simp

/-- A list is read exactly from the messages of its kind whose payload is the entries of its
addresses, all of which can be listed. -/
theorem parseServerList_eq_ok_iff_entries :
    parseServerList message = .ok servers ↔
      classify message = .ok (.answer .serverList) ∧ (∀ a ∈ servers, a.Listable) ∧
        servers.flatMap SocketAddress.toEntry = payload message := by
  rw [parseServerList_eq_ok_iff]
  constructor
  · rintro ⟨⟨hkind, hwhole⟩, rfl⟩
    obtain ⟨servers, hservers, hentries⟩ := exists_entries hwhole
    rw [← hentries, readEntries_flatMap_toEntry hservers]
    exact ⟨hkind, hservers, rfl⟩
  · rintro ⟨hkind, hservers, hentries⟩
    rw [IsServerList, ← hentries, readEntries_flatMap_toEntry hservers, length_flatMap_toEntry]
    exact ⟨⟨hkind, Nat.dvd_mul_left ..⟩, rfl⟩

/-- A payload of entries behind a header and the signature is read. -/
theorem parseServerList_append {header : Bytes} (hheader : header.length = answerHeaderSize)
    (h : ∀ a ∈ servers, a.Listable) :
    parseServerList (header ++ Query.serverList.answerSignature
      ++ servers.flatMap SocketAddress.toEntry) = .ok servers := by
  have hsignature := Query.length_answerSignature .serverList
  refine parseServerList_eq_ok_iff_entries.mpr ⟨classify_eq_answer_iff.mpr ⟨?_, ?_⟩, h, ?_⟩
  · rw [List.length_append, List.length_append, hheader, hsignature]
    exact Nat.le_add_right ..
  · exact signatureOf_append hheader hsignature _
  · exact (payload_append hheader hsignature _).symm

/-- **Reading and writing server lists undo each other.**  The entries of addresses that can be
listed, behind any header, are read as these addresses in their order.  A message is read exactly if
it holds a list, and is an invalid list otherwise; then it has an address for every eighteen bytes
of its payload, no mapped host is named by its sixteen octets, and the entries of the addresses are
the payload.  So messages with different payloads are never read as the same list, and addresses of
one server are the same address, wherever they are listed. -/
theorem parseServerList_bijective :
    (∀ (header : Bytes) (servers : List SocketAddress), header.length = answerHeaderSize →
      (∀ a ∈ servers, a.Listable) →
        parseServerList (header ++ Query.serverList.answerSignature
          ++ servers.flatMap SocketAddress.toEntry) = .ok servers) ∧
    (∀ message : Bytes,
      ((∃ servers, (parseServerList message).mapError Error.invalidServerList = .ok servers) ↔
        IsServerList message) ∧
      ((∃ fault, (parseServerList message).mapError Error.invalidServerList =
        .error (.invalidServerList fault)) ↔ ¬ IsServerList message) ∧
      ∀ servers, parseServerList message = .ok servers →
        servers.length * entrySize = (payload message).length ∧ (∀ a ∈ servers, a.Listable) ∧
          servers.flatMap SocketAddress.toEntry = payload message) ∧
    ∀ (message other : Bytes) (servers others : List SocketAddress),
      parseServerList message = .ok servers → parseServerList other = .ok others →
        (payload message ≠ payload other → servers ≠ others) ∧
          ∀ a ∈ servers, ∀ b ∈ others, a.toEntry = b.toEntry → a = b := by
  refine ⟨fun header servers => parseServerList_append, fun message => ⟨?_, ?_, ?_⟩, ?_⟩
  · simp only [mapError_eq_ok_iff, parseServerList_eq_ok_iff, exists_and_left, exists_eq',
      and_true]
  · simp only [mapError_eq_error_iff, Error.invalidServerList.injEq, exists_eq_right]
    exact exists_parseServerList_eq_error_iff message
  · intro servers h
    obtain ⟨-, hservers, hentries⟩ := parseServerList_eq_ok_iff_entries.mp h
    exact ⟨by rw [← hentries, length_flatMap_toEntry], hservers, hentries⟩
  · intro message other servers others h hother
    obtain ⟨-, hservers, hentries⟩ := parseServerList_eq_ok_iff_entries.mp h
    obtain ⟨-, hothers, hotherEntries⟩ := parseServerList_eq_ok_iff_entries.mp hother
    refine ⟨fun hne heq => hne ?_, fun a ha b hb => (hservers a ha).eq_of_toEntry (hothers b hb)⟩
    rw [← hentries, ← hotherEntries, heq]

/-- Hosts of four octets and of sixteen, one of them listed twice, and one that is mapped but for a
single bit. -/
def mixedServers : List SocketAddress :=
  [.v4 ⟨10, 0, 0, 7⟩ 8303, .v6 .unspecified 0 0, .v4 ⟨10, 0, 0, 7⟩ 8303,
    .v6 ⟨[0, 0, 0, 0, 0, 0, 0, 0, 0, 0, 0xFF, 0xFE, 10, 0, 0, 7], rfl⟩ 8303 0]

/-- The message that lists `mixedServers`. -/
def mixedMessage : Bytes :=
  [0x21, 1, 2, 3, 4, 5, 6, 7, 8] ++ Query.serverList.answerSignature
    ++ mixedServers.flatMap SocketAddress.toEntry

theorem parseServerList_bijective_mixed :
    (∀ a ∈ mixedServers, a.Listable) ∧ parseServerList mixedMessage = .ok mixedServers ∧
      mixedServers.length * entrySize = (payload mixedMessage).length ∧
      ∀ a ∈ mixedServers, ∀ b ∈ mixedServers, a.toEntry = b.toEntry → a = b := by
  obtain ⟨hwritten, hread, hunique⟩ := parseServerList_bijective
  have h : parseServerList mixedMessage = .ok mixedServers :=
    hwritten _ mixedServers rfl (by decide)
  exact ⟨by decide, h, ((hread mixedMessage).2.2 mixedServers h).1,
    (hunique mixedMessage mixedMessage mixedServers mixedServers h h).2⟩

end ServerDiscovery
