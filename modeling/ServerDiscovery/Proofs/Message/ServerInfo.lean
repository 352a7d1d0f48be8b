import ServerDiscovery.Error
import ServerDiscovery.Proofs.Wire.Field

/-! # Status records are read back

The readers of a status record read one field after another, so what they take is said by a list of
fields: `statusFields` and `clientFields`.  Each reader has one law, which says that it succeeds
exactly where its fields stand.

Two things follow from these laws.  A record that was written is read back
(`parseServerInfo_written`), because its fields stand in front of whatever follows.  And whatever is
read, from bytes that any writer may have made, is a record that can be written and read again
(`parseServerInfo_normalises`), because no text that was read holds U+0000.
-/

namespace ServerDiscovery

open Wire

variable {bytes rest : Bytes} {status : ServerStatus} {client : ClientInfo} {info : ServerInfo}
  {source : SocketAddress}

/-! ## 1. Readers in a row -/

theorem FieldReader.bind_eq_ok_iff {α β : Type} {reader : FieldReader α} {next : α → FieldReader β}
    {b : β} : (reader >>= next) bytes = .ok (b, rest) ↔
      ∃ a left, reader bytes = .ok (a, left) ∧ next a left = .ok (b, rest) := by
  have hbind : (reader >>= next) bytes = reader bytes >>= fun r => next r.1 r.2 := rfl
  rw [hbind]
  cases reader bytes with
  | error e => exact iff_of_false (fun h => by cases h) (by simp)
  | ok r =>
    constructor
    · intro h
      exact ⟨r.1, r.2, rfl, h⟩
    · rintro ⟨a, left, hr, h⟩
      cases hr
      exact h

theorem FieldReader.pure_eq_ok_iff {α : Type} {a b : α} :
    (pure a : FieldReader α) bytes = .ok (b, rest) ↔ a = b ∧ bytes = rest := by
  constructor
  · intro h
    cases h
    exact ⟨rfl, rfl⟩
  · rintro ⟨rfl, rfl⟩
    rfl

/-! ## 2. The fields of a record -/

/-- The fields of a status, in order. -/
def statusFields (s : ServerStatus) : List Field :=
  [.text s.version, .text s.name, .text s.hostname, .text s.map, .text s.gameType,
    .integer s.flags, .integer s.skillLevel, .integer s.numPlayers, .integer s.maxPlayers,
    .integer s.numClients, .integer s.maxClients]

/-- The fields of a client, with the number that says whether it plays. -/
def clientFields (c : ClientInfo) (playing : Int32) : List Field :=
  [.text c.name, .text c.clan, .integer c.country, .integer c.score, .integer playing]

/-- A status is read exactly where its fields stand. -/
theorem readStatus_eq_ok_iff :
    readStatus bytes = .ok (status, rest) ↔ BeginsWith bytes (statusFields status) rest := by
  simp only [readStatus, readText, readInteger, FieldReader.bind_eq_ok_iff,
    FieldReader.pure_eq_ok_iff, statusFields, beginsWith_text_iff, beginsWith_integer_iff,
    beginsWith_nil_iff]
  constructor
  · rintro ⟨_, b₁, h₁, _, b₂, h₂, _, b₃, h₃, _, b₄, h₄, _, b₅, h₅, _, b₆, h₆, _, b₇, h₇, _, b₈, h₈,
      _, b₉, h₉, _, b₁₀, h₁₀, _, b₁₁, h₁₁, rfl, rfl⟩
    exact ⟨b₁, h₁, b₂, h₂, b₃, h₃, b₄, h₄, b₅, h₅, b₆, h₆, b₇, h₇, b₈, h₈, b₉, h₉, b₁₀, h₁₀, b₁₁,
      h₁₁, rfl⟩
  · rintro ⟨b₁, h₁, b₂, h₂, b₃, h₃, b₄, h₄, b₅, h₅, b₆, h₆, b₇, h₇, b₈, h₈, b₉, h₉, b₁₀, h₁₀, b₁₁,
      h₁₁, rfl⟩
    exact ⟨_, b₁, h₁, _, b₂, h₂, _, b₃, h₃, _, b₄, h₄, _, b₅, h₅, _, b₆, h₆, _, b₇, h₇, _, b₈, h₈,
      _, b₉, h₉, _, b₁₀, h₁₀, _, b₁₁, h₁₁, rfl, rfl⟩

/-- The client as a reader sees it that finds the number `playing`. -/
def ClientInfo.seen (c : ClientInfo) (playing : Int32) : ClientInfo :=
  { c with isPlayer := playing != 0 }

/-- A client is read exactly where its fields stand. -/
theorem readClient_eq_ok_iff : readClient bytes = .ok (client, rest) ↔
    ∃ playing, client = client.seen playing ∧
      BeginsWith bytes (clientFields client playing) rest := by
  simp only [readClient, readText, readInteger, FieldReader.bind_eq_ok_iff,
    FieldReader.pure_eq_ok_iff, clientFields, beginsWith_text_iff, beginsWith_integer_iff,
    beginsWith_nil_iff]
  constructor
  · rintro ⟨_, b₁, h₁, _, b₂, h₂, _, b₃, h₃, _, b₄, h₄, playing, b₅, h₅, rfl, rfl⟩
    exact ⟨playing, rfl, b₁, h₁, b₂, h₂, b₃, h₃, b₄, h₄, b₅, h₅, rfl⟩
  · rintro ⟨playing, hseen, b₁, h₁, b₂, h₂, b₃, h₃, b₄, h₄, b₅, h₅, rfl⟩
    exact ⟨_, b₁, h₁, _, b₂, h₂, _, b₃, h₃, _, b₄, h₄, playing, b₅, h₅, hseen.symm, rfl⟩

/-! ## 3. All clients -/

/-- The fields of clients in a row, each with the number that says whether it plays. -/
def entryFields (entries : List (ClientInfo × Int32)) : List Field :=
  entries.flatMap fun e => clientFields e.1 e.2

/-- The clients as a reader sees them. -/
def seenClients (entries : List (ClientInfo × Int32)) : List ClientInfo :=
  entries.map fun e => e.1.seen e.2

/-- Clients are read exactly where the fields of as many clients stand. -/
theorem readClients_eq_ok_iff {count : Nat} {clients : List ClientInfo} :
    readClients count bytes = .ok (clients, rest) ↔
      ∃ entries : List (ClientInfo × Int32), entries.length = count ∧
        clients = seenClients entries ∧ BeginsWith bytes (entryFields entries) rest := by
  induction count generalizing bytes clients with
  | zero =>
    rw [readClients, FieldReader.pure_eq_ok_iff]
    constructor
    · rintro ⟨rfl, rfl⟩
      exact ⟨[], rfl, rfl, beginsWith_nil_iff.mpr rfl⟩
    · rintro ⟨entries, hlength, rfl, hentries⟩
      obtain rfl := List.length_eq_zero_iff.mp hlength
      exact ⟨rfl, beginsWith_nil_iff.mp hentries⟩
  | succ count ih =>
    simp only [readClients, FieldReader.bind_eq_ok_iff, FieldReader.pure_eq_ok_iff]
    constructor
    · rintro ⟨client, left, hclient, others, _, hothers, rfl, rfl⟩
      obtain ⟨playing, hseen, hfields⟩ := readClient_eq_ok_iff.mp hclient
      obtain ⟨entries, rfl, rfl, hentries⟩ := ih.mp hothers
      refine ⟨(client, playing) :: entries, rfl, ?_, ?_⟩
      · exact congrArg (· :: seenClients entries) hseen
      · exact beginsWith_append_iff.mpr ⟨left, hfields, hentries⟩
    · rintro ⟨entries, hlength, rfl, hentries⟩
      rcases entries with _ | ⟨⟨client, playing⟩, entries⟩
      · cases hlength
      · obtain ⟨left, hfields, hothers⟩ := beginsWith_append_iff.mp hentries
        have hclient : readClient bytes = .ok (client.seen playing, left) :=
          readClient_eq_ok_iff.mpr ⟨playing, rfl, hfields⟩
        exact ⟨_, left, hclient, _, _, ih.mpr ⟨entries, Nat.succ.inj hlength, rfl, hothers⟩, rfl,
          rfl⟩

/-! ## 4. The whole record -/

/-- The fields of a record, in order: the number of the token, the status and the clients. -/
def infoFields (token : Int32) (status : ServerStatus) (entries : List (ClientInfo × Int32)) :
    List Field :=
  .integer token :: statusFields status ++ entryFields entries

/-- The number of the token and the status, which are read before the counts are checked. -/
theorem readTokenAndStatus_eq_ok_iff :
    (do let _token ← readInteger; readStatus : FieldReader ServerStatus) bytes =
        .ok (status, rest) ↔
      ∃ token, BeginsWith bytes (.integer token :: statusFields status) rest := by
  rw [FieldReader.bind_eq_ok_iff]
  simp only [beginsWith_integer_iff, readStatus_eq_ok_iff]
  exact Iff.rfl

theorem ServerStatus.Consistent.toNat_numClients (h : status.Consistent) :
    (status.numClients.toInt.toNat : Int) = status.numClients.toInt := by
  have := h.1
  have := h.2.1
  omega

/-- A payload is read exactly where the fields of a record stand whose counts agree. -/
theorem readServerInfo_eq_ok_iff : readServerInfo source bytes = .ok info ↔
    ∃ token entries rest, BeginsWith bytes (infoFields token info.toServerStatus entries) rest ∧
      info.Consistent ∧ (entries.length : Int) = info.numClients.toInt ∧
      info.clients = seenClients entries ∧ info.address = source := by
  unfold readServerInfo
  constructor
  · intro h
    split at h
    · cases h
    · next status left hstatus =>
      obtain ⟨token, hfields⟩ := readTokenAndStatus_eq_ok_iff.mp hstatus
      split at h
      · next hconsistent =>
        split at h
        · cases h
        · next clients rest hclients =>
          cases h
          obtain ⟨entries, hlength, hseen, hentries⟩ := readClients_eq_ok_iff.mp hclients
          refine ⟨token, entries, rest, ?_, hconsistent, ?_, hseen, rfl⟩
          · exact beginsWith_append_iff.mpr ⟨left, hfields, hentries⟩
          · rw [hlength]
            exact hconsistent.toNat_numClients
      · cases h
  · rintro ⟨token, entries, rest, hfields, hconsistent, hlength, hclients, rfl⟩
    rw [infoFields, beginsWith_append_iff] at hfields
    obtain ⟨left, hstatus, hentries⟩ := hfields
    have hcount : entries.length = info.numClients.toInt.toNat := by omega
    have hread := readClients_eq_ok_iff.mpr ⟨entries, hcount, rfl, hentries⟩
    rw [readTokenAndStatus_eq_ok_iff.mpr ⟨token, hstatus⟩]
    simp only [if_pos hconsistent, hread, ← hclients]

/-- **A message is read exactly if it is an answer with such a payload.** -/
theorem parseServerInfo_eq_ok_iff {message : Bytes} : parseServerInfo message source = .ok info ↔
    answerHeaderSize + signatureSize ≤ message.length ∧
      signatureOf message = Query.serverInfo.answerSignature ∧
      readServerInfo source (payload message) = .ok info := by
  rw [← and_assoc, ← classify_eq_answer_iff, ← expectKind_eq_ok_iff, parseServerInfo]
  cases expectKind (.answer .serverInfo) message with
  | error e => simp
  | ok u => simp

/-! ## 5. Writing -/

theorem packFields_statusFields (s : ServerStatus) :
    packFields (statusFields s) = packStatus s := by
  simp [packFields, statusFields, Field.pack, packStatus]

theorem packFields_clientFields (c : ClientInfo) (playing : Int32) :
    packFields (clientFields c playing) = packClient c playing := by
  simp [packFields, clientFields, Field.pack, packClient]

/-- The fields of a record are written as the number of the token, the status and the clients. -/
theorem packFields_infoFields (token : Int32) (status : ServerStatus)
    (entries : List (ClientInfo × Int32)) :
    packFields (infoFields token status entries) = packInteger token ++ packStatus status
      ++ entries.flatMap fun e => packClient e.1 e.2 := by
  have hentries : packFields (entryFields entries) =
      entries.flatMap fun e => packClient e.1 e.2 := by
    rw [packFields, entryFields, List.flatMap_assoc]
    exact congrArg (entries.flatMap ·) (funext fun e => packFields_clientFields e.1 e.2)
  have hhead : packFields (.integer token :: statusFields status) =
      packInteger token ++ packStatus status := by
    rw [← packFields_statusFields]
    rfl
  rw [← hentries, ← hhead]
  exact List.flatMap_append

/-- The texts of a status. -/
def ServerStatus.texts (s : ServerStatus) : List String :=
  [s.version, s.name, s.hostname, s.map, s.gameType]

/-- The texts of a client. -/
def ClientInfo.texts (c : ClientInfo) : List String := [c.name, c.clan]

/-- The texts of a record. -/
def ServerInfo.texts (info : ServerInfo) : List String :=
  info.toServerStatus.texts ++ info.clients.flatMap ClientInfo.texts

/-- The fields of a record are read back as they are if no text holds U+0000. -/
theorem whole_infoFields_iff {token : Int32} {entries : List (ClientInfo × Int32)} :
    (∀ field ∈ infoFields token status entries, field.Whole) ↔
      (∀ text ∈ status.texts, NulFree text) ∧ ∀ e ∈ entries, ∀ text ∈ e.1.texts, NulFree text := by
  have hstatus : (∀ field ∈ .integer token :: statusFields status, field.Whole) ↔
      ∀ text ∈ status.texts, NulFree text := by
    simp [statusFields, ServerStatus.texts, Field.Whole]
  have hclient (c : ClientInfo) (playing : Int32) :
      (∀ field ∈ clientFields c playing, field.Whole) ↔ ∀ text ∈ c.texts, NulFree text := by
    simp [clientFields, ClientInfo.texts, Field.Whole]
  rw [infoFields, List.forall_mem_append, hstatus, entryFields, List.forall_mem_flatMap]
  simp only [hclient]

/-- An answer is read as its payload is. -/
theorem parseServerInfo_append {header payload : Bytes} (h : header.length = answerHeaderSize) :
    parseServerInfo (header ++ Query.serverInfo.answerSignature ++ payload) source =
      readServerInfo source payload := by
  have hsignature := Query.length_answerSignature .serverInfo
  have hclassify : classify (header ++ Query.serverInfo.answerSignature ++ payload) =
      .ok (.answer .serverInfo) := by
    refine classify_eq_answer_iff.mpr ⟨?_, signatureOf_append h hsignature payload⟩
    rw [List.length_append, List.length_append, h, hsignature]
    exact Nat.le_add_right ..
  rw [parseServerInfo, expectKind_eq_ok_iff.mpr hclassify, payload_append h hsignature]

/-! ## 6. Reading what was written -/

/-- A payload that was written is read back, whatever comes behind it. -/
theorem readServerInfo_packFields {entries : List (ClientInfo × Int32)}
    (hstatus : ∀ text ∈ status.texts, NulFree text)
    (hclients : ∀ e ∈ entries, ∀ text ∈ e.1.texts, NulFree text) (hcounts : status.Consistent)
    (hlength : (entries.length : Int) = status.numClients.toInt) (token : Int32) (rest : Bytes) :
    readServerInfo source (packFields (infoFields token status entries) ++ rest) =
      .ok { status with address := source, clients := seenClients entries } := by
  have hwhole : ∀ field ∈ infoFields token status entries, field.Whole :=
    whole_infoFields_iff.mpr ⟨hstatus, hclients⟩
  exact readServerInfo_eq_ok_iff.mpr
    ⟨token, entries, rest, beginsWith_packFields hwhole rest, hcounts, hlength, rfl, rfl⟩

/-- **A record that was written is read back.**  The counts have to agree, and no text may hold
U+0000, which would end it.  The header, the number of the token and what comes behind the last
client are of no account; a client plays exactly if the number that says so is not zero. -/
theorem parseServerInfo_written (token : Int32) (status : ServerStatus)
    (entries : List (ClientInfo × Int32)) (header trailing : Bytes) (source : SocketAddress)
    (hheader : header.length = answerHeaderSize) (hstatus : ∀ text ∈ status.texts, NulFree text)
    (hclients : ∀ e ∈ entries, ∀ text ∈ e.1.texts, NulFree text) (hcounts : status.Consistent)
    (hlength : (entries.length : Int) = status.numClients.toInt) :
    parseServerInfo (header ++ Query.serverInfo.answerSignature ++ (packInteger token
        ++ packStatus status ++ (entries.flatMap fun e => packClient e.1 e.2) ++ trailing)) source =
      .ok { status with
        address := source
        clients := entries.map fun e => { e.1 with isPlayer := e.2 != 0 } } := by
  rw [parseServerInfo_append hheader, ← packFields_infoFields]
  exact readServerInfo_packFields hstatus hclients hcounts hlength token trailing

/-- A status with an empty text, a text beyond ASCII and numbers at their bounds. -/
def crowdedStatus : ServerStatus where
  version := "0.7.5"
  name := "Größe 你"
  hostname := ""
  map := "ctf5"
  gameType := "CTF"
  flags := -2147483648
  skillLevel := 2147483647
  numPlayers := 0
  maxPlayers := 64
  numClients := 3
  maxClients := 64

/-- Clients that play, watch, and play by a number that is not one. -/
def crowd : List (ClientInfo × Int32) :=
  [(⟨"nameless tee", "", -1, -9999, false⟩, 1), (⟨"", "🎮", 276, 64, true⟩, 0),
    (⟨"ü", "clan", 0, 2147483647, false⟩, -64)]

theorem parseServerInfo_written_crowd :
    crowdedStatus.Consistent ∧ (crowd.length : Int) = crowdedStatus.numClients.toInt ∧
      (∀ text ∈ crowdedStatus.texts, NulFree text) ∧
      (∀ e ∈ crowd, ∀ text ∈ e.1.texts, NulFree text) ∧
      parseServerInfo ([0x21, 0, 0, 0, 1, 0xFF, 0xFF, 0xFF, 0xFF]
        ++ Query.serverInfo.answerSignature ++ (packInteger (-77) ++ packStatus crowdedStatus
          ++ (crowd.flatMap fun e => packClient e.1 e.2) ++ [0x80, 0x00]))
          (.v6 .unspecified 8303 2) =
        .ok { crowdedStatus with
          address := .v6 .unspecified 8303 2
          clients := [⟨"nameless tee", "", -1, -9999, true⟩, ⟨"", "🎮", 276, 64, false⟩,
            ⟨"ü", "clan", 0, 2147483647, true⟩] } :=
  ⟨by decide, by decide, by decide, by decide,
    parseServerInfo_written (-77) crowdedStatus crowd _ [0x80, 0x00] (.v6 .unspecified 8303 2) rfl
      (by decide) (by decide) (by decide) (by decide)⟩

/-! ## 7. Reading is a normalisation -/

/-- An answer that holds a record: behind the header stands the signature, and behind the signature
the fields of a record whose counts agree. -/
def IsServerInfo (message : Bytes) : Prop :=
  answerHeaderSize + signatureSize ≤ message.length ∧
    signatureOf message = Query.serverInfo.answerSignature ∧
    ∃ token status entries rest,
      BeginsWith (payload message) (infoFields token status entries) rest ∧
      status.Consistent ∧ (entries.length : Int) = status.numClients.toInt

/-- A message is read exactly if it holds a record. -/
theorem exists_parseServerInfo_eq_ok_iff (message : Bytes) (source : SocketAddress) :
    (∃ info, parseServerInfo message source = .ok info) ↔ IsServerInfo message := by
  simp only [parseServerInfo_eq_ok_iff, readServerInfo_eq_ok_iff]
  constructor
  · rintro ⟨info, hsize, hsignature, token, entries, rest, hfields, hcounts, hlength, -, -⟩
    exact ⟨hsize, hsignature, token, info.toServerStatus, entries, rest, hfields, hcounts, hlength⟩
  · rintro ⟨hsize, hsignature, token, status, entries, rest, hfields, hcounts, hlength⟩
    exact ⟨{ status with address := source, clients := seenClients entries }, hsize, hsignature,
      token, entries, rest, hfields, hcounts, hlength, rfl, rfl⟩

/-- The clients with the numbers that a writer gives them. -/
def numbered (clients : List ClientInfo) : List (ClientInfo × Int32) :=
  clients.map fun c => (c, if c.isPlayer then 1 else 0)

/-- A reader sees the clients that a writer numbered. -/
theorem seenClients_numbered (clients : List ClientInfo) :
    seenClients (numbered clients) = clients := by
  have hseen (c : ClientInfo) : c.seen (if c.isPlayer then 1 else 0) = c := by
    rcases c with ⟨name, clan, country, score, _ | _⟩ <;> rfl
  rw [seenClients, numbered, List.map_map]
  exact List.map_id'' hseen clients

/-- A record is written as its fields. -/
theorem packFields_infoFields_numbered (token : Int32) (info : ServerInfo) :
    packFields (infoFields token info.toServerStatus (numbered info.clients)) =
      packServerInfo token info := by
  rw [packFields_infoFields, numbered, List.flatMap_map, packServerInfo]

/-- No text that was read holds U+0000. -/
theorem nulFree_of_readServerInfo (h : readServerInfo source bytes = .ok info) :
    (∀ text ∈ info.toServerStatus.texts, NulFree text) ∧
      ∀ c ∈ info.clients, ∀ text ∈ c.texts, NulFree text := by
  obtain ⟨token, entries, rest, hfields, -, -, hclients, -⟩ := readServerInfo_eq_ok_iff.mp h
  obtain ⟨hstatus, hentries⟩ := whole_infoFields_iff.mp hfields.whole
  refine ⟨hstatus, fun c hc => ?_⟩
  rw [hclients] at hc
  obtain ⟨e, he, rfl⟩ := List.mem_map.mp hc
  exact hentries e he

/-- There are as many clients as the status says, and its counts agree. -/
theorem length_clients_of_readServerInfo (h : readServerInfo source bytes = .ok info) :
    (info.clients.length : Int) = info.numClients.toInt ∧ info.Consistent := by
  obtain ⟨token, entries, rest, -, hcounts, hlength, hclients, -⟩ := readServerInfo_eq_ok_iff.mp h
  rw [hclients, seenClients, List.length_map]
  exact ⟨hlength, hcounts⟩

theorem address_of_readServerInfo (h : readServerInfo source bytes = .ok info) :
    info.address = source := by
  obtain ⟨-, -, -, -, -, -, -, haddress⟩ := readServerInfo_eq_ok_iff.mp h
  exact haddress

/-- What was read is read again when it is written. -/
theorem readServerInfo_packServerInfo (h : readServerInfo source bytes = .ok info) (token : Int32)
    (rest : Bytes) : readServerInfo source (packServerInfo token info ++ rest) = .ok info := by
  obtain ⟨hstatus, hclients⟩ := nulFree_of_readServerInfo h
  obtain ⟨hlength, hcounts⟩ := length_clients_of_readServerInfo h
  have hnumbered : ∀ e ∈ numbered info.clients, ∀ text ∈ e.1.texts, NulFree text := by
    intro e he
    obtain ⟨c, hc, rfl⟩ := List.mem_map.mp he
    exact hclients c hc
  have hcount : ((numbered info.clients).length : Int) = info.numClients.toInt := by
    rw [numbered, List.length_map, hlength]
  rw [← packFields_infoFields_numbered, readServerInfo_packFields hstatus hnumbered hcounts hcount,
    seenClients_numbered, ← address_of_readServerInfo h]

/-- A message that holds no record has a fault. -/
theorem exists_parseServerInfo_eq_error_iff (message : Bytes) (source : SocketAddress) :
    (∃ fault, parseServerInfo message source = .error fault) ↔ ¬ IsServerInfo message := by
  rw [← exists_parseServerInfo_eq_ok_iff message source]
  cases parseServerInfo message source with
  | error fault => simp
  | ok info => simp

/-- **A message is read exactly if it holds a record, and reading is a normalisation.**  A message
that holds none is an invalid record, whatever is wrong with it.  What is read comes from the
source, its counts agree, it has as many clients as it says and no text of it holds U+0000; so when
it is written, with any number for the token and any header in front, it is read again as it is. -/
theorem parseServerInfo_normalises (message : Bytes) (source : SocketAddress) :
    ((∃ info, (parseServerInfo message source).mapError Error.invalidServerInfo = .ok info) ↔
        IsServerInfo message) ∧
      ((∃ fault, (parseServerInfo message source).mapError Error.invalidServerInfo =
        .error (.invalidServerInfo fault)) ↔ ¬ IsServerInfo message) ∧
      ∀ info, parseServerInfo message source = .ok info →
        info.address = source ∧ (info.clients.length : Int) = info.numClients.toInt ∧
          info.Consistent ∧ (∀ text ∈ info.texts, NulFree text) ∧
          ∀ (token : Int32) (header trailing : Bytes), header.length = answerHeaderSize →
            parseServerInfo (header ++ Query.serverInfo.answerSignature
              ++ (packServerInfo token info ++ trailing)) source = .ok info := by
  refine ⟨?_, ?_, fun info h => ?_⟩
  · simp only [mapError_eq_ok_iff]
    exact exists_parseServerInfo_eq_ok_iff message source
  · simp only [mapError_eq_error_iff, Error.invalidServerInfo.injEq, exists_eq_right]
    exact exists_parseServerInfo_eq_error_iff message source
  · obtain ⟨-, -, hread⟩ := parseServerInfo_eq_ok_iff.mp h
    obtain ⟨hlength, hcounts⟩ := length_clients_of_readServerInfo hread
    obtain ⟨hstatus, hclients⟩ := nulFree_of_readServerInfo hread
    refine ⟨address_of_readServerInfo hread, hlength, hcounts, ?_, ?_⟩
    · rw [ServerInfo.texts, List.forall_mem_append, List.forall_mem_flatMap]
      exact ⟨hstatus, hclients⟩
    · intro token header trailing hheader
      rw [parseServerInfo_append hheader]
      exact readServerInfo_packServerInfo hread token trailing

/-- A message in forms that no writer uses: the number of the token has a second byte without bits,
a text is not UTF-8, the flags have a fifth byte with bits that they have no room for, and the last
client plays by the number 2. -/
def unusualMessage : Bytes :=
  [0, 1, 2, 3, 4, 5, 6, 7, 8] ++ Query.serverInfo.answerSignature
    ++ [0x80, 0x00, 0x30, 0x00, 0xC3, 0x28, 0x00, 0x00, 0x61, 0x00, 0x62, 0x00]
    ++ [0xBF, 0xFF, 0xFF, 0xFF, 0xFF, 0x01, 0x01, 0x88, 0x00, 0x01, 0x80, 0x01]
    ++ [0x63, 0x00, 0x00, 0x40, 0x05, 0x02] ++ [0xFF, 0xFF]

/-- What `unusualMessage` holds. -/
def unusualInfo : ServerInfo where
  version := "0"
  name := "\uFFFD("
  hostname := ""
  map := "a"
  gameType := "b"
  flags := -1
  skillLevel := 1
  numPlayers := 1
  maxPlayers := 8
  numClients := 1
  maxClients := 64
  address := .v4 ⟨10, 0, 0, 7⟩ 8303
  clients := [⟨"c", "", -1, 5, true⟩]

theorem parseServerInfo_normalises_unusual :
    parseServerInfo unusualMessage (.v4 ⟨10, 0, 0, 7⟩ 8303) = .ok unusualInfo ∧
      IsServerInfo unusualMessage ∧ (∀ text ∈ unusualInfo.texts, NulFree text) ∧
      parseServerInfo ([8, 7, 6, 5, 4, 3, 2, 1, 0] ++ Query.serverInfo.answerSignature
        ++ (packServerInfo 0 unusualInfo ++ [0x40])) (.v4 ⟨10, 0, 0, 7⟩ 8303) =
          .ok unusualInfo := by
  have hread : parseServerInfo unusualMessage (.v4 ⟨10, 0, 0, 7⟩ 8303) = .ok unusualInfo := by
    decide +kernel
  obtain ⟨hiff, -, hinfo⟩ := parseServerInfo_normalises unusualMessage (.v4 ⟨10, 0, 0, 7⟩ 8303)
  obtain ⟨-, -, -, htexts, hagain⟩ := hinfo unusualInfo hread
  exact ⟨hread, hiff.mp ⟨unusualInfo, by rw [hread]; rfl⟩, htexts, hagain 0 _ [0x40] rfl⟩

end ServerDiscovery
