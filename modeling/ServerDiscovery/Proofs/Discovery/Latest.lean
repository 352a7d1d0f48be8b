import Mathlib.Data.Finset.Card
import Mathlib.Data.List.Nodup
import ServerDiscovery.Discovery.Collector
import ServerDiscovery.Proofs.Metrics.Amounts

/-! # What a collector keeps

A collector puts the records into its set in the order in which they were sent.  `kept` is what
comes of that, and it is given by the records alone: the set has the latest record of each address
(`get?_kept`), and each address was counted once, when it was new (`counts_kept`).

`Collector.Holds` is how far a collector is.  Of all that was sent, a first part is in the set, and
the rest is in the channel.  Sending adds to the one end and taking out moves the border, and so
whatever the writers and the collector did in between, a collector with an empty channel has kept
all that was sent (`Collector.Holds.of_channel_eq_nil`).
-/

namespace ServerDiscovery

variable {a : SocketAddress} {info r : ServerInfo} {l : List ServerInfo} {s t : ServerSet}

/-! ## 1. Latest records -/

/-- The last record of an address. -/
def latest? (a : SocketAddress) (l : List ServerInfo) : Option ServerInfo :=
  (l.filter (·.address = a)).getLast?

theorem latest?_concat (a : SocketAddress) (l : List ServerInfo) (info : ServerInfo) :
    latest? a (l ++ [info]) = if info.address = a then some info else latest? a l := by
  by_cases h : info.address = a <;> simp [latest?, h]

theorem of_latest?_eq_some (h : latest? a l = some r) : r ∈ l ∧ r.address = a := by
  simpa using List.mem_of_getLast? h

theorem latest?_eq_none_iff : latest? a l = none ↔ a ∉ l.map (·.address) := by
  rw [latest?, List.getLast?_eq_none_iff]
  simp

/-! ## 2. Sets -/

namespace ServerSet

theorem find?_put (info : ServerInfo) (l : List ServerInfo) (a : SocketAddress) :
    (put info l).find? (·.address = a) =
      if info.address = a then some info else l.find? (·.address = a) := by
  induction l with
  | nil => by_cases h : info.address = a <;> simp [put, h]
  | cons r rest ih =>
    by_cases hr : r.address = info.address
    · by_cases h : info.address = a <;> simp [put, hr, h]
    · by_cases h : info.address = a
      · subst h
        simp [put, hr, ih]
      · simp [put, hr, h, ih, List.find?_cons]

theorem get?_insert (s : ServerSet) (info : ServerInfo) (a : SocketAddress) :
    (s.insert info).2.get? a = if info.address = a then some info else s.get? a :=
  find?_put info s.records a

theorem length_put (info : ServerInfo) (l : List ServerInfo) :
    (put info l).length =
      l.length + if l.any (·.address = info.address) then 0 else 1 := by
  induction l with
  | nil => rfl
  | cons r rest ih =>
    by_cases hr : r.address = info.address
    · simp [put, hr]
    · simp only [put, hr, if_false, List.length_cons, ih, List.any_cons, decide_false,
        Bool.false_or]
      exact Nat.add_right_comm ..

/-- A set grows by one record exactly if the address is new. -/
theorem size_insert (s : ServerSet) (info : ServerInfo) :
    (s.insert info).2.size = s.size + if (s.insert info).1 then 1 else 0 := by
  simp only [size, insert, length_put, contains]
  by_cases h : s.records.any (·.address = info.address) <;> simp [h]

/-- The record of an address is the one with that address. -/
theorem get?_eq_some_iff : s.get? a = some r ↔ r ∈ s.records ∧ r.address = a := by
  constructor
  · intro h
    exact ⟨List.mem_of_find?_eq_some h, by simpa using List.find?_some h⟩
  · rintro ⟨hmem, rfl⟩
    obtain ⟨found, hfound⟩ : ∃ found, s.get? r.address = some found :=
      Option.isSome_iff_exists.mp (List.find?_isSome.mpr ⟨r, hmem, by simp⟩)
    have haddress : found.address = r.address := by simpa using List.find?_some hfound
    have hrecord := List.mem_of_find?_eq_some hfound
    rw [hfound, List.inj_on_of_nodup_map s.distinct hrecord hmem haddress]

theorem get?_eq_none_iff : s.get? a = none ↔ a ∉ s.records.map (·.address) := by
  simp [get?]

/-- Sets with the same record of each address have the same records. -/
theorem perm_of_get?_eq (h : ∀ a, s.get? a = t.get? a) : s.records.Perm t.records := by
  refine (List.perm_ext_iff_of_nodup (.of_map _ s.distinct) (.of_map _ t.distinct)).mpr fun r => ?_
  have hs : s.get? r.address = some r ↔ r ∈ s.records := by simp [get?_eq_some_iff]
  have ht : t.get? r.address = some r ↔ r ∈ t.records := by simp [get?_eq_some_iff]
  rw [← hs, h, ht]

end ServerSet

/-! ## 3. Keeping -/

/-- A collector that has put these records into its set, in this order. -/
def kept (l : List ServerInfo) : Collector := l.foldl Collector.keep .start

theorem kept_concat (l : List ServerInfo) (info : ServerInfo) :
    kept (l ++ [info]) = (kept l).keep info := by
  rw [kept, List.foldl_append]
  rfl

/-- **The latest record of each address is kept.** -/
theorem get?_kept (l : List ServerInfo) (a : SocketAddress) :
    (kept l).servers.get? a = latest? a l := by
  induction l using List.reverseRecOn with
  | nil => rfl
  | append_singleton l info ih =>
    rw [kept_concat, latest?_concat, ← ih]
    exact ServerSet.get?_insert ..

theorem mem_addresses_kept_iff :
    a ∈ (kept l).servers.records.map (·.address) ↔ a ∈ l.map (·.address) := by
  rw [← not_iff_not, ← ServerSet.get?_eq_none_iff, get?_kept, latest?_eq_none_iff]

/-- There is one record for each address. -/
theorem size_kept (l : List ServerInfo) :
    (kept l).servers.size = (l.map (·.address)).toFinset.card := by
  have hset : (l.map (·.address)).toFinset = ((kept l).servers.records.map (·.address)).toFinset :=
    Finset.ext fun a => by rw [List.mem_toFinset, List.mem_toFinset, mem_addresses_kept_iff]
  rw [hset, List.toFinset_card_of_nodup (kept l).servers.distinct, List.length_map, ServerSet.size]

/-- Each address was counted once. -/
theorem counts_kept (l : List ServerInfo) :
    (kept l).counts = List.replicate (kept l).servers.size .serverDiscovered := by
  induction l using List.reverseRecOn with
  | nil => rfl
  | append_singleton l info ih =>
    have hsize : ((kept l).keep info).servers.size =
        (kept l).servers.size + if ((kept l).servers.insert info).1 then 1 else 0 :=
      ServerSet.size_insert ..
    have hcounts : ((kept l).keep info).counts =
        if ((kept l).servers.insert info).1 then (kept l).counts ++ [.serverDiscovered]
        else (kept l).counts := rfl
    rw [kept_concat, hsize, hcounts, ih]
    split
    · exact List.replicate_succ'.symm
    · rfl

/-- The counter of servers grows by the number of addresses. -/
theorem serversDiscovered_kept (l : List ServerInfo) (m : Metrics) :
    (m.addAll (kept l).counts).serversDiscovered =
      m.serversDiscovered + UInt64.ofNat (l.map (·.address)).toFinset.card := by
  have hamounts : ∀ size, amounts .serversDiscovered (List.replicate size .serverDiscovered) =
      wrapped size := by
    intro size
    induction size with
    | zero => rfl
    | succ size ih =>
      rw [List.replicate_succ, amounts_cons, ih, Nat.add_comm, map_add]
      rfl
  have hread := m.read_addAll .serversDiscovered (kept l).counts
  rw [counts_kept, hamounts, size_kept] at hread
  rw [counts_kept, size_kept]
  exact hread

/-! ## 4. How far a collector is -/

namespace Collector

variable {c : Collector} {entered : List ServerInfo}

/-- Of what entered the channel, a first part is in the set, and the rest is in the channel. -/
def Holds (c : Collector) (entered : List ServerInfo) : Prop :=
  ∃ applied, entered = applied ++ c.channel ∧ c.servers = (kept applied).servers ∧
    c.counts = (kept applied).counts

theorem holds_start : start.Holds [] := ⟨[], rfl, rfl, rfl⟩

/-- There is room in an empty channel. -/
theorem hasRoom_of_channel_eq_nil (h : c.channel = []) : c.hasRoom = true := by
  simp [hasRoom, h, collectorCapacity]

/-- With room nothing is taken out to send a record. -/
theorem send_of_hasRoom (h : c.hasRoom = true) (info : ServerInfo) :
    c.send info = { c with channel := c.channel ++ [info] } := by
  rw [Collector.send, if_pos h]

theorem Holds.addSink (h : c.Holds entered) : c.addSink.Holds entered := h

theorem Holds.dropSink (h : c.Holds entered) : c.dropSink.Holds entered := h

/-- A record enters at the end of the channel. -/
theorem Holds.push (h : c.Holds entered) (info : ServerInfo) :
    Holds { c with channel := c.channel ++ [info] } (entered ++ [info]) := by
  obtain ⟨applied, rfl, hkept⟩ := h
  exact ⟨applied, List.append_assoc .., hkept⟩

/-- A collector that has put some records into its set puts the next there. -/
theorem keep_eq_kept {applied : List ServerInfo}
    (h : c.servers = (kept applied).servers ∧ c.counts = (kept applied).counts)
    (info : ServerInfo) :
    (c.keep info).servers = (kept (applied ++ [info])).servers ∧
      (c.keep info).counts = (kept (applied ++ [info])).counts := by
  obtain ⟨hservers, hcounts⟩ := h
  simp [kept_concat, Collector.keep, hservers, hcounts]

theorem receive_of_cons {rest : List ServerInfo} (h : c.channel = info :: rest) :
    c.receive = ({ c with channel := rest } : Collector).keep info := by
  unfold Collector.receive
  rw [h]

/-- What is taken out of the channel is put into the set. -/
theorem Holds.receive (h : c.Holds entered) : c.receive.Holds entered := by
  obtain ⟨applied, rfl, hkept⟩ := h
  cases hchannel : c.channel with
  | nil =>
    have hreceive : c.receive = c := by
      unfold Collector.receive
      rw [hchannel]
    rw [hreceive]
    exact ⟨applied, by rw [hchannel], hkept⟩
  | cons info rest =>
    rw [receive_of_cons hchannel, List.append_cons]
    exact ⟨applied ++ [info], rfl, keep_eq_kept hkept info⟩

/-- **With an empty channel, all that entered is kept.** -/
theorem Holds.of_channel_eq_nil (h : c.Holds entered) (hchannel : c.channel = []) :
    c.servers = (kept entered).servers ∧ c.counts = (kept entered).counts := by
  obtain ⟨applied, rfl, hkept⟩ := h
  rwa [hchannel, List.append_nil]

theorem Holds.send (h : c.Holds entered) (info : ServerInfo) :
    (c.send info).Holds (entered ++ [info]) := by
  unfold Collector.send
  split
  · exact h.push info
  · exact h.receive.push info

theorem Holds.foldl_send (h : c.Holds entered) (records : List ServerInfo) :
    (records.foldl Collector.send c).Holds (entered ++ records) := by
  induction records generalizing c entered with
  | nil => rwa [List.append_nil]
  | cons info records ih =>
    rw [List.append_cons]
    exact ih (h.send info)

theorem Holds.foldl_write (h : c.Holds entered) (writers : List (List ServerInfo)) :
    (writers.foldl Collector.write c).Holds (entered ++ writers.flatten) := by
  induction writers generalizing c entered with
  | nil => rwa [List.flatten_nil, List.append_nil]
  | cons records writers ih =>
    rw [List.flatten_cons, ← List.append_assoc]
    exact ih (h.addSink.foldl_send records).dropSink

/-- What is put into the set behind all that entered has entered too. -/
theorem Holds.foldl_keep (h : c.Holds entered) (hchannel : c.channel = [])
    (records : List ServerInfo) :
    (records.foldl Collector.keep c).Holds (entered ++ records) ∧
      (records.foldl Collector.keep c).channel = [] := by
  induction records generalizing c entered with
  | nil => exact ⟨by rwa [List.append_nil], hchannel⟩
  | cons info records ih =>
    have hchannel' : (c.keep info).channel = [] := hchannel
    have hkeep : (c.keep info).Holds (entered ++ [info]) :=
      ⟨entered ++ [info], by rw [hchannel', List.append_nil],
        keep_eq_kept (h.of_channel_eq_nil hchannel) info⟩
    rw [List.append_cons]
    exact ih hkeep hchannel'

theorem Holds.drain (h : c.Holds entered) :
    c.drain.servers = (kept entered).servers ∧ c.drain.counts = (kept entered).counts := by
  obtain ⟨applied, rfl, hkept⟩ := h
  have hempty : Holds { c with channel := [] } applied :=
    ⟨applied, (List.append_nil _).symm, hkept⟩
  obtain ⟨hholds, hchannel⟩ := hempty.foldl_keep rfl c.channel
  exact hholds.of_channel_eq_nil hchannel

/-- Writers that follow one another leave what they sent. -/
theorem collect_eq_kept (writers : List (List ServerInfo)) :
    (collect writers).servers = (kept writers.flatten).servers ∧
      (collect writers).counts = (kept writers.flatten).counts :=
  (holds_start.foldl_write writers).dropSink.drain

end Collector

end ServerDiscovery
