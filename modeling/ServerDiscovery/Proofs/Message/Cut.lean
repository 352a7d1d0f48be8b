import ServerDiscovery.Proofs.Datagram.Cut
import ServerDiscovery.Proofs.Message.ServerInfo
import ServerDiscovery.Proofs.Message.ServerList

/-! # Answers that are cut

A receive buffer that is too small for an answer cuts it, and nothing in the datagram says so.  What
becomes of the cut depends on how the answer ends.

A status record says by its counts how much there is to read.  More bytes behind it change nothing,
so what is read from a cut answer is what is read from the whole one (`parseServerInfo_of_take`).  A
cut is noticed unless it leaves everything that was read (`parseServerInfo_take_iff`); to say how
much that is, `readRecord` reads a payload as `readServerInfo` does, and keeps what is left of it.

A server list ends where its entries end.  A cut between two entries is not noticed, and the list is
shorter then; every other cut is (`parseServerList_take_iff`).
-/

namespace ServerDiscovery

open Wire

variable {bytes rest message : Bytes} {status : ServerStatus} {clients : List ClientInfo}
  {record : ServerStatus × List ClientInfo} {info : ServerInfo} {source : SocketAddress}
  {servers others : List SocketAddress} {size n : Nat}

/-! ## 1. Records and what is behind them -/

/-- Read a payload: the number of the token, the status, and as many clients as it says. -/
def readRecord : FieldReader (ServerStatus × List ClientInfo) := do
  let _token ← readInteger
  let status ← readStatus
  let clients ← readClients status.numClients.toInt.toNat
  return (status, clients)

/-- A payload is read exactly where the fields of a record stand, whatever comes behind them. -/
theorem readRecord_eq_ok_iff : readRecord bytes = .ok ((status, clients), rest) ↔
    ∃ token entries, entries.length = status.numClients.toInt.toNat ∧
      clients = seenClients entries ∧ BeginsWith bytes (infoFields token status entries) rest := by
  simp only [readRecord, readInteger, FieldReader.bind_eq_ok_iff, FieldReader.pure_eq_ok_iff,
    Prod.mk.injEq, readStatus_eq_ok_iff, readClients_eq_ok_iff, infoFields, List.cons_append,
    beginsWith_integer_iff, beginsWith_append_iff]
  constructor
  · rintro ⟨token, b₁, h₁, status, b₂, h₂, clients, b₃, ⟨entries, hlength, hseen, h₃⟩,
      ⟨rfl, rfl⟩, rfl⟩
    exact ⟨token, entries, hlength, hseen, b₁, h₁, b₂, h₂, h₃⟩
  · rintro ⟨token, entries, hlength, hseen, b₁, h₁, b₂, h₂, h₃⟩
    exact ⟨token, b₁, h₁, status, b₂, h₂, clients, rest, ⟨entries, hlength, hseen, h₃⟩, ⟨rfl, rfl⟩,
      rfl⟩

/-- A record is what was read of its payload, if its counts agree. -/
theorem readServerInfo_eq_ok_iff_readRecord : readServerInfo source bytes = .ok info ↔
    info.Consistent ∧ info.address = source ∧
      ∃ rest, readRecord bytes = .ok ((info.toServerStatus, info.clients), rest) := by
  simp only [readServerInfo_eq_ok_iff, readRecord_eq_ok_iff]
  constructor
  · rintro ⟨token, entries, rest, hfields, hcounts, hlength, hclients, haddress⟩
    exact ⟨hcounts, haddress, rest, token, entries, by omega, hclients, hfields⟩
  · rintro ⟨hcounts, haddress, rest, token, entries, hlength, hclients, hfields⟩
    have hcount := hcounts.toNat_numClients
    exact ⟨token, entries, rest, hfields, hcounts, by omega, hclients, haddress⟩

/-- More bytes are left, and nothing else changes. -/
theorem readRecord_append (h : readRecord bytes = .ok (record, rest)) (more : Bytes) :
    readRecord (bytes ++ more) = .ok (record, rest ++ more) := by
  obtain ⟨token, entries, hlength, hclients, hfields⟩ := readRecord_eq_ok_iff.mp h
  exact readRecord_eq_ok_iff.mpr ⟨token, entries, hlength, hclients, hfields.append more⟩

theorem length_of_readRecord (h : readRecord bytes = .ok (record, rest)) :
    rest.length ≤ bytes.length := by
  obtain ⟨_, _, -, -, taken, rfl, -⟩ := readRecord_eq_ok_iff.mp h
  rw [List.length_append]
  exact Nat.le_add_left ..

/-- **A payload that is cut is read exactly if everything that was read is left.** -/
theorem readRecord_take_iff (h : readRecord bytes = .ok (record, rest)) :
    (∃ left, readRecord (bytes.take size) = .ok (record, left)) ↔
      bytes.length ≤ rest.length + size := by
  constructor
  · rintro ⟨left, hcut⟩
    have hwhole := readRecord_append hcut (bytes.drop size)
    rw [List.take_append_drop, h] at hwhole
    obtain rfl : rest = left ++ bytes.drop size := (Prod.mk.inj (Except.ok.inj hwhole)).2
    rw [List.length_append, List.length_drop]
    omega
  · intro hsize
    obtain ⟨token, entries, hlength, hclients, hfields⟩ := readRecord_eq_ok_iff.mp h
    obtain ⟨left, hcut⟩ := hfields.take hsize
    exact ⟨left, readRecord_eq_ok_iff.mpr ⟨token, entries, hlength, hclients, hcut⟩⟩

/-! ## 2. Records that are cut -/

/-- An answer that is cut is too short for the kind of an answer, or it keeps the kind. -/
theorem classify_take_eq_answer_iff {query : Query} :
    classify (message.take n) = .ok (.answer query) ↔
      answerHeaderSize + signatureSize ≤ n ∧ classify message = .ok (.answer query) := by
  constructor
  · intro h
    have hsize := (classify_eq_answer_iff.mp h).1
    rw [List.length_take] at hsize
    have hn : answerHeaderSize + signatureSize ≤ n := Nat.le_trans hsize (Nat.min_le_left ..)
    exact ⟨hn, classify_take hn message ▸ h⟩
  · rintro ⟨hn, h⟩
    rw [classify_take hn, h]

/-- A message is read exactly if it is of the kind and its payload is read. -/
theorem parseServerInfo_eq_ok_iff_classify : parseServerInfo message source = .ok info ↔
    classify message = .ok (.answer .serverInfo) ∧
      readServerInfo source (payload message) = .ok info := by
  rw [parseServerInfo_eq_ok_iff, ← and_assoc, ← classify_eq_answer_iff]

/-- A record is read from an answer that is cut if its signature and a record are left. -/
theorem parseServerInfo_take_eq_ok_iff : parseServerInfo (message.take n) source = .ok info ↔
    answerHeaderSize + signatureSize ≤ n ∧ classify message = .ok (.answer .serverInfo) ∧
      readServerInfo source ((payload message).take (n - (answerHeaderSize + signatureSize))) =
        .ok info := by
  rw [parseServerInfo_eq_ok_iff_classify, classify_take_eq_answer_iff, payload_take, and_assoc]

/-- **What is read from an answer that is cut is what is read from the whole one.** -/
theorem parseServerInfo_of_take (h : parseServerInfo (message.take n) source = .ok info) :
    parseServerInfo message source = .ok info := by
  obtain ⟨-, hkind, hread⟩ := parseServerInfo_take_eq_ok_iff.mp h
  obtain ⟨hcounts, haddress, rest, hrecord⟩ := readServerInfo_eq_ok_iff_readRecord.mp hread
  have hwhole := readRecord_append hrecord
    ((payload message).drop (n - (answerHeaderSize + signatureSize)))
  rw [List.take_append_drop] at hwhole
  exact parseServerInfo_eq_ok_iff_classify.mpr
    ⟨hkind, readServerInfo_eq_ok_iff_readRecord.mpr ⟨hcounts, haddress, _, hwhole⟩⟩

/-- **A cut is noticed unless everything that was read is left.** -/
theorem parseServerInfo_take_iff (h : parseServerInfo message source = .ok info)
    (hread : readRecord (payload message) = .ok (record, rest)) :
    parseServerInfo (message.take n) source = .ok info ↔ message.length ≤ rest.length + n := by
  obtain ⟨hkind, hinfo⟩ := parseServerInfo_eq_ok_iff_classify.mp h
  have hsize := (classify_eq_answer_iff.mp hkind).1
  obtain ⟨hcounts, haddress, rest', hrecord⟩ := readServerInfo_eq_ok_iff_readRecord.mp hinfo
  obtain ⟨rfl, rfl⟩ := Prod.mk.inj (Except.ok.inj (hread.symm.trans hrecord))
  have hlength : (payload message).length =
      message.length - (answerHeaderSize + signatureSize) := List.length_drop ..
  have hleft := length_of_readRecord hread
  simp only [parseServerInfo_take_eq_ok_iff, readServerInfo_eq_ok_iff_readRecord, hkind, hcounts,
    haddress, true_and, readRecord_take_iff hread]
  omega

/-! ## 3. Lists that are cut -/

/-- Whole entries at the front are those of the first addresses. -/
theorem take_flatMap_toEntry (servers : List SocketAddress) (count : Nat) :
    (servers.flatMap SocketAddress.toEntry).take (count * entrySize) =
      (servers.take count).flatMap SocketAddress.toEntry := by
  induction servers generalizing count with
  | nil => simp
  | cons address servers ih =>
    cases count with
    | zero => simp
    | succ count =>
      have hentry := address.length_toEntry
      have hfirst : address.toEntry.length ≤ (count + 1) * entrySize :=
        hentry ▸ Nat.le_mul_of_pos_left entrySize (Nat.succ_pos count)
      rw [List.flatMap_cons, List.take_append, List.take_of_length_le hfirst, hentry, Nat.succ_mul,
        Nat.add_sub_cancel, ih, List.take_succ_cons, List.flatMap_cons]

/-- Whole entries at the front are read as the first addresses. -/
theorem readEntries_take (h : ∀ a ∈ servers, a.Listable) (hwhole : entrySize ∣ size) :
    readEntries ((servers.flatMap SocketAddress.toEntry).take size) =
      servers.take (size / entrySize) := by
  have hfirst : ∀ a ∈ servers.take (size / entrySize), a.Listable := fun a ha =>
    h a (List.mem_of_mem_take ha)
  rw [← Nat.div_mul_cancel hwhole, take_flatMap_toEntry, Nat.div_mul_cancel hwhole,
    readEntries_flatMap_toEntry hfirst]

/-- **A cut between two entries shortens a list**, and every other cut is noticed. -/
theorem parseServerList_take_iff (h : parseServerList message = .ok servers) :
    parseServerList (message.take n) = .ok others ↔
      answerHeaderSize + signatureSize ≤ min n message.length ∧
        entrySize ∣ min n message.length - (answerHeaderSize + signatureSize) ∧
        others = servers.take
          ((min n message.length - (answerHeaderSize + signatureSize)) / entrySize) := by
  obtain ⟨hkind, hservers, hentries⟩ := parseServerList_eq_ok_iff_entries.mp h
  have hsize := (classify_eq_answer_iff.mp hkind).1
  have hlength : (payload message).length =
      message.length - (answerHeaderSize + signatureSize) := List.length_drop ..
  -- The cut may lie behind the end.
  have hcut : (payload message).take (n - (answerHeaderSize + signatureSize)) =
      (payload message).take (min n message.length - (answerHeaderSize + signatureSize)) := by
    rw [List.take_eq_take_iff, hlength]
    omega
  have hkept : ((payload message).take
      (min n message.length - (answerHeaderSize + signatureSize))).length =
        min n message.length - (answerHeaderSize + signatureSize) := by
    rw [List.length_take, hlength]
    omega
  rw [parseServerList_eq_ok_iff, IsServerList, classify_take_eq_answer_iff, payload_take, hcut,
    hkept, ← hentries]
  constructor
  · rintro ⟨⟨⟨hn, -⟩, hwhole⟩, rfl⟩
    exact ⟨Nat.le_min.mpr ⟨hn, hsize⟩, hwhole, readEntries_take hservers hwhole⟩
  · rintro ⟨hn, hwhole, rfl⟩
    exact ⟨⟨⟨(Nat.le_min.mp hn).1, hkind⟩, hwhole⟩, readEntries_take hservers hwhole⟩

/-! ## 4. What a cut can do -/

/-- **A record that is cut is never altered, and a list only shortened.**  Whatever is cut from an
answer, the rest is an invalid record or reads as the whole answer does; if the answer was read to
its last byte, it is invalid.  What is left of a list is a list exactly if it holds the signature
and whole entries behind it, and it lists the addresses of these entries then.  So a list that is
really cut is shorter than it was, and that is not noticed only if the buffer is as long as some
list. -/
theorem cut_answer :
    (∀ (message : Bytes) (source : SocketAddress) (n : Nat),
      (∃ fault, (parseServerInfo (message.take n) source).mapError Error.invalidServerInfo =
        .error (.invalidServerInfo fault)) ∨
      parseServerInfo (message.take n) source = parseServerInfo message source) ∧
    (∀ (message : Bytes) (source : SocketAddress) (info : ServerInfo)
        (record : ServerStatus × List ClientInfo),
      parseServerInfo message source = .ok info →
      readRecord (payload message) = .ok (record, []) → ∀ n < message.length,
        ∃ fault, (parseServerInfo (message.take n) source).mapError Error.invalidServerInfo =
          .error (.invalidServerInfo fault)) ∧
    ∀ (message : Bytes) (servers : List SocketAddress), parseServerList message = .ok servers →
      ∀ n,
        ((∃ others, parseServerList (message.take n) = .ok others) ↔
          answerHeaderSize + signatureSize ≤ min n message.length ∧
            entrySize ∣ min n message.length - (answerHeaderSize + signatureSize)) ∧
        ∀ others, parseServerList (message.take n) = .ok others →
          others = servers.take
            ((min n message.length - (answerHeaderSize + signatureSize)) / entrySize) ∧
          (n < message.length → others.length < servers.length ∧
            entrySize ∣ n - (answerHeaderSize + signatureSize)) := by
  refine ⟨fun message source n => ?_, fun message source info record h hread n hn => ?_,
    fun message servers h n => ⟨?_, fun others hcut => ?_⟩⟩
  · cases hcut : parseServerInfo (message.take n) source with
    | error fault => exact .inl ⟨fault, rfl⟩
    | ok info => exact .inr (parseServerInfo_of_take hcut).symm
  · cases hcut : parseServerInfo (message.take n) source with
    | error fault => exact ⟨fault, rfl⟩
    | ok other =>
      obtain rfl : info = other :=
        Except.ok.inj (h.symm.trans (parseServerInfo_of_take hcut))
      have hlength : message.length ≤ 0 + n := (parseServerInfo_take_iff h hread).mp hcut
      omega
  · simp only [parseServerList_take_iff h, exists_and_left, exists_eq, and_true]
  · obtain ⟨hn, hwhole, rfl⟩ := (parseServerList_take_iff h).mp hcut
    refine ⟨rfl, fun hshort => ?_⟩
    obtain ⟨-, -, hentries⟩ := parseServerList_eq_ok_iff_entries.mp h
    have hlength : servers.length * entrySize =
        message.length - (answerHeaderSize + signatureSize) := by
      rw [← length_flatMap_toEntry, hentries]
      exact List.length_drop ..
    rw [Nat.min_eq_left (Nat.le_of_lt hshort)] at hn hwhole ⊢
    have hfewer : (n - (answerHeaderSize + signatureSize)) / entrySize < servers.length := by
      rw [Nat.div_lt_iff_lt_mul (by decide), hlength]
      omega
    exact ⟨Nat.lt_of_le_of_lt (List.length_take_le ..) hfewer, hwhole⟩

/-- An answer with the record `unusualInfo` and nothing behind it. -/
def exactMessage : Bytes :=
  [0x21, 1, 2, 3, 4, 5, 6, 7, 8] ++ Query.serverInfo.answerSignature
    ++ packServerInfo 77 unusualInfo

/-- A record without its last byte is invalid; of four addresses two are left by a cut in the
middle, and none by a cut one byte later. -/
theorem cut_answer_exactAndMixed :
    parseServerInfo exactMessage unusualInfo.address = .ok unusualInfo ∧
    (∃ fault, (parseServerInfo (exactMessage.take (exactMessage.length - 1))
      unusualInfo.address).mapError Error.invalidServerInfo = .error (.invalidServerInfo fault)) ∧
    parseServerList (mixedMessage.take 53) = .ok (mixedServers.take 2) ∧
    ¬ ∃ others, parseServerList (mixedMessage.take 54) = .ok others := by
  obtain ⟨-, hinfo, hlist⟩ := cut_answer
  have hrecord : parseServerInfo exactMessage unusualInfo.address = .ok unusualInfo := by
    decide +kernel
  have hread : readRecord (payload exactMessage) =
      .ok ((unusualInfo.toServerStatus, unusualInfo.clients), []) := by decide +kernel
  have hservers : parseServerList mixedMessage = .ok mixedServers := by decide +kernel
  obtain ⟨others, hcut⟩ := (hlist mixedMessage mixedServers hservers 53).1.mpr (by decide +kernel)
  obtain rfl := ((hlist mixedMessage mixedServers hservers 53).2 others hcut).1
  refine ⟨hrecord, hinfo exactMessage _ unusualInfo _ hrecord hread _ (by decide +kernel), hcut, ?_⟩
  rw [(hlist mixedMessage mixedServers hservers 54).1]
  decide +kernel

end ServerDiscovery
