import ServerDiscovery.Discovery.Client
import ServerDiscovery.Proofs.Discovery.Tasks
import ServerDiscovery.Proofs.Message.ServerInfo

/-! # What a discovery finds

An `Occasion` is a client that discovers, with a network for each enquiry that it may make.  So two
enquiries to the same peer need not come to the same, and everything that can become of the
enquiries is covered.  `Occasion.reports` is what its tasks start from.

What a discovery returns depends on its schedule if a server answers twice, for then the answer that
comes last counts.  But the addresses do not: they are those that were answered for
(`Occasion.mem_answers_iff`), and failures have no part in them (`answers_withoutFailures`).

`Client.discoverWithin` has one network for all its enquiries, and takes what came of them in the
order of its settings.  One of the schedules does the same (`Occasion.exists_returned_steady`), so
what is true of the set that any schedule returns is true of the client's own.  The main statement,
`Occasion.discovers_found`, is all of this for every schedule, with the fact that every schedule
returns, and once more for the client.
-/

namespace ServerDiscovery

open Discovery

/-! ## 1. Answers -/

variable {info : ServerInfo} {a : SocketAddress}

/-- An answer is that of a server on the list of a directory. -/
theorem mem_answers_iff {reports : List DirectoryReport} : info ∈ answers reports ↔
    ∃ report ∈ reports, ∃ server, (server, .ok info) ∈ listedIn report := by
  have hrecords : ∀ entry : SocketAddress × Except Error ServerInfo,
      info ∈ recordsOf entry ↔ entry.2 = .ok info := by
    rintro ⟨server, e | answer⟩
    · simp [recordsOf]
    · simp [recordsOf, eq_comm]
  simp only [answers, List.mem_flatten, List.mem_flatMap, writersOf_eq, List.mem_map]
  constructor
  · rintro ⟨_, ⟨report, hreport, ⟨server, outcome⟩, hentry, rfl⟩, hinfo⟩
    obtain rfl : outcome = .ok info := (hrecords _).mp hinfo
    exact ⟨report, hreport, server, hentry⟩
  · rintro ⟨report, hreport, server, hentry⟩
    exact ⟨_, ⟨report, hreport, _, hentry, rfl⟩, (hrecords _).mpr rfl⟩

theorem mem_listedIn_iff {report : DirectoryReport}
    {entry : SocketAddress × Except Error ServerInfo} :
    entry ∈ listedIn report ↔ ∃ listed, report = .ok listed ∧ entry ∈ listed := by
  cases report <;> simp [listedIn]

/-- The reports without the directories that failed, and without the servers that failed. -/
def withoutFailures (reports : List DirectoryReport) : List DirectoryReport :=
  reports.filterMap fun
    | .ok listed => some (.ok (listed.filter (·.2.isOk)))
    | .error _ => none

/-- **Failures answer nothing.** -/
theorem answers_withoutFailures (reports : List DirectoryReport) :
    answers (withoutFailures reports) = answers reports := by
  have hlisted : ∀ listed : List (SocketAddress × Except Error ServerInfo),
      ((listed.filter (·.2.isOk)).map recordsOf).flatten = (listed.map recordsOf).flatten := by
    intro listed
    induction listed with
    | nil => rfl
    | cons entry listed ih =>
      rcases entry with ⟨server, e | answer⟩
      · exact ih
      · exact congrArg (answer :: ·) ih
  induction reports with
  | nil => rfl
  | cons report reports ih =>
    cases report with
    | error e => simpa [withoutFailures, answers_cons, writersOf] using ih
    | ok listed =>
      rw [answers_cons, ← ih]
      exact (answers_cons _ _).trans (congrArg (· ++ _) (hlisted listed))

/-! ## 2. Sets that are returned -/

namespace Search.Sound

variable {reports others : List DirectoryReport} {s t : Search} {set other : ServerSet}

/-- The addresses of a set that is returned are those of the answers. -/
theorem mem_addresses_iff (hs : s.Sound reports) (hset : s.collection.returned = some set) :
    a ∈ set.records.map (·.address) ↔ a ∈ (answers reports).map (·.address) := by
  obtain ⟨hperm, rfl⟩ := hs.barrier hset
  rw [mem_addresses_kept_iff, (hperm.map _).mem_iff]

/-- The records of a set that is returned are answers. -/
theorem mem_answers (hs : s.Sound reports) (hset : s.collection.returned = some set)
    (hinfo : info ∈ set.records) : info ∈ answers reports := by
  obtain ⟨hperm, rfl⟩ := hs.barrier hset
  have hget := ServerSet.get?_eq_some_iff.mpr ⟨hinfo, rfl⟩
  rw [get?_kept] at hget
  exact hperm.mem_iff.mp (of_latest?_eq_some hget).1

/-- **Failures make no difference to the addresses that are returned.** -/
theorem mem_addresses_congr (hs : s.Sound reports) (hset : s.collection.returned = some set)
    (ht : t.Sound others) (hother : t.collection.returned = some other)
    (heq : withoutFailures others = withoutFailures reports) :
    a ∈ other.records.map (·.address) ↔ a ∈ set.records.map (·.address) := by
  rw [ht.mem_addresses_iff hother, hs.mem_addresses_iff hset, ← answers_withoutFailures, heq,
    answers_withoutFailures]

end Search.Sound

/-! ## 3. Occasions -/

/-- A discovery by a client, and the networks that its enquiries meet. -/
structure Occasion where
  client : Client
  /-- What meets the enquiry for the list of the directory at a place of the settings. -/
  directory : ℕ → Network
  /-- What meets the enquiry about the server at a place of the list of that directory. -/
  server : ℕ → ℕ → Network
  masterTimeout : Duration
  serverTimeout : Duration

namespace Occasion

/-- What comes of the directory at a place. -/
def report (o : Occasion) (i : ℕ) (master : String) : DirectoryReport := do
  let directory ← (o.directory i).resolve master
  let listed ← (o.client.serverList (o.directory i) directory o.masterTimeout).outcome
  return listed.mapIdx fun j server =>
    (server, (o.client.serverInfoAt (o.server i j) server o.serverTimeout).outcome)

/-- What comes of the directories. -/
def reports (o : Occasion) : List DirectoryReport :=
  o.client.settings.discovery.masterServers.mapIdx o.report

/-- The query for the list of the directory at a place succeeds, and this is the list. -/
def Lists (o : Occasion) (i : ℕ) (listed : List SocketAddress) : Prop :=
  ∃ master directory, o.client.settings.discovery.masterServers[i]? = some master ∧
    (o.directory i).resolve master = .ok directory ∧
    (o.client.serverList (o.directory i) directory o.masterTimeout).outcome = .ok listed

/-- The query to the server at a place of a list succeeds, and this is its record. -/
def Finds (o : Occasion) (i j : ℕ) (server : SocketAddress) (info : ServerInfo) : Prop :=
  ∃ listed, o.Lists i listed ∧ listed[j]? = some server ∧
    (o.client.serverInfoAt (o.server i j) server o.serverTimeout).outcome = .ok info

variable {o : Occasion} {i j : ℕ} {server : SocketAddress}

/-- A record has the address of the server that was asked. -/
theorem Finds.address_eq (h : o.Finds i j server info) : info.address = server := by
  obtain ⟨listed, -, -, houtcome⟩ := h
  rw [Client.serverInfoAt, Reply.reading] at houtcome
  obtain ⟨response, -, hread⟩ := bind_eq_ok_iff.mp houtcome
  rw [mapError_eq_ok_iff, parseServerInfo_eq_ok_iff] at hread
  exact address_of_readServerInfo hread.2.2

/-- A record that a report lists was found, at some place of a list. -/
theorem mem_listedIn_report {master : String} :
    (server, .ok info) ∈ listedIn (o.report i master) ↔
      ∃ directory, (o.directory i).resolve master = .ok directory ∧
        ∃ listed,
          (o.client.serverList (o.directory i) directory o.masterTimeout).outcome = .ok listed ∧
          ∃ j, listed[j]? = some server ∧
            (o.client.serverInfoAt (o.server i j) server o.serverTimeout).outcome = .ok info := by
  have hentry : ∀ listed : List SocketAddress,
      (server, .ok info) ∈ (listed.mapIdx fun j server =>
        (server, (o.client.serverInfoAt (o.server i j) server o.serverTimeout).outcome)) ↔
      ∃ j, listed[j]? = some server ∧
        (o.client.serverInfoAt (o.server i j) server o.serverTimeout).outcome = .ok info := by
    intro listed
    simp only [List.mem_mapIdx, Prod.mk.injEq, List.getElem?_eq_some_iff]
    constructor
    · rintro ⟨j, hj, rfl, houtcome⟩
      exact ⟨j, ⟨hj, rfl⟩, houtcome⟩
    · rintro ⟨j, ⟨hj, rfl⟩, houtcome⟩
      exact ⟨j, hj, rfl, houtcome⟩
  rw [mem_listedIn_iff, report]
  simp only [bind_eq_ok_iff]
  constructor
  · rintro ⟨entries, ⟨directory, hresolve, listed, hlist, hentries⟩, hmem⟩
    cases hentries
    exact ⟨directory, hresolve, listed, hlist, (hentry listed).mp hmem⟩
  · rintro ⟨directory, hresolve, listed, hlist, hfound⟩
    exact ⟨_, ⟨directory, hresolve, listed, hlist, rfl⟩, (hentry listed).mpr hfound⟩

/-- **The answers are the records that were found.** -/
theorem mem_answers_iff : info ∈ answers o.reports ↔ ∃ i j server, o.Finds i j server info := by
  rw [ServerDiscovery.mem_answers_iff]
  simp only [reports, List.mem_mapIdx]
  constructor
  · rintro ⟨_, ⟨i, hi, rfl⟩, server, hmem⟩
    obtain ⟨directory, hresolve, listed, hlist, j, hfound⟩ := mem_listedIn_report.mp hmem
    exact ⟨i, j, server, listed,
      ⟨_, directory, List.getElem?_eq_getElem hi, hresolve, hlist⟩, hfound⟩
  · rintro ⟨i, j, server, listed, ⟨master, directory, hmaster, hresolve, hlist⟩, hfound⟩
    obtain ⟨hi, rfl⟩ := List.getElem?_eq_some_iff.mp hmaster
    exact ⟨_, ⟨i, hi, rfl⟩, server,
      mem_listedIn_report.mpr ⟨directory, hresolve, listed, hlist, j, hfound⟩⟩

/-- The addresses of the answers are those for which a query to a listed server succeeded. -/
theorem mem_addresses_answers_iff : a ∈ (answers o.reports).map (·.address) ↔
    (∃ i listed, o.Lists i listed ∧ a ∈ listed) ∧ ∃ i j info, o.Finds i j a info := by
  rw [List.mem_map]
  constructor
  · rintro ⟨info, hinfo, rfl⟩
    obtain ⟨i, j, server, hfinds⟩ := mem_answers_iff.mp hinfo
    obtain rfl := hfinds.address_eq
    obtain ⟨listed, hlists, hserver, -⟩ := id hfinds
    exact ⟨⟨i, listed, hlists, List.mem_of_getElem? hserver⟩, i, j, info, hfinds⟩
  · rintro ⟨-, i, j, info, hfinds⟩
    exact ⟨info, mem_answers_iff.mpr ⟨i, j, a, hfinds⟩, hfinds.address_eq⟩

/-- Each record of a set that is returned was found by asking the server at its address. -/
theorem finds_of_returned {s : Search} {set : ServerSet} (hs : s.Sound o.reports)
    (hset : s.collection.returned = some set) (hinfo : info ∈ set.records) :
    ∃ i j, o.Finds i j info.address info := by
  obtain ⟨i, j, server, hfinds⟩ := mem_answers_iff.mp (hs.mem_answers hset hinfo)
  exact ⟨i, j, hfinds.address_eq ▸ hfinds⟩

/-! ## 4. One network for all enquiries -/

/-- One network for all enquiries. -/
def steady (c : Client) (n : Network) (masterTimeout serverTimeout : Duration) : Occasion :=
  ⟨c, fun _ => n, fun _ _ => n, masterTimeout, serverTimeout⟩

section Steady

variable (c : Client) (n : Network) (masterTimeout serverTimeout : Duration)

theorem reports_steady : (steady c n masterTimeout serverTimeout).reports =
    c.settings.discovery.masterServers.map (c.fanOut n masterTimeout serverTimeout).report := by
  have hmap : ∀ {α β : Type} (f : α → β) (l : List α), (l.mapIdx fun _ => f) = l.map f :=
    fun f l => List.ext_getElem (by simp) fun i _ _ => by simp
  have hreports : (steady c n masterTimeout serverTimeout).report =
      fun _ => (c.fanOut n masterTimeout serverTimeout).report := by
    funext i master
    simp only [report, FanOut.report, steady, Client.fanOut, hmap]
  rw [reports, hreports]
  exact hmap _ _

/-- **What the client returns is what one of the schedules returns**, if the network is the same for
all enquiries. -/
theorem exists_returned_steady :
    ∃ s, Search.Reaches (.start (steady c n masterTimeout serverTimeout).reports) s ∧
      s.collection.returned = some (c.discoverWithin n masterTimeout serverTimeout).servers := by
  rw [reports_steady]
  exact Search.exists_returned _

variable {c n masterTimeout serverTimeout}

/-- With one network a server is listed wherever a directory of the settings lists it. -/
theorem exists_lists_steady_iff :
    (∃ i listed, (steady c n masterTimeout serverTimeout).Lists i listed ∧ a ∈ listed) ↔
      ∃ master ∈ c.settings.discovery.masterServers, ∃ directory listed,
        n.resolve master = .ok directory ∧
        (c.serverList n directory masterTimeout).outcome = .ok listed ∧ a ∈ listed := by
  constructor
  · rintro ⟨i, listed, ⟨master, directory, hmaster, hresolve, hlist⟩, ha⟩
    exact ⟨master, List.mem_of_getElem? hmaster, directory, listed, hresolve, hlist, ha⟩
  · rintro ⟨master, hmaster, directory, listed, hresolve, hlist, ha⟩
    obtain ⟨i, hi⟩ := List.mem_iff_getElem?.mp hmaster
    exact ⟨i, listed, ⟨master, directory, hi, hresolve, hlist⟩, ha⟩

/-- With one network a server is found wherever it is listed, if it answers. -/
theorem exists_finds_steady_iff :
    (∃ i j, (steady c n masterTimeout serverTimeout).Finds i j server info) ↔
      (∃ i listed, (steady c n masterTimeout serverTimeout).Lists i listed ∧ server ∈ listed) ∧
        (c.serverInfoAt n server serverTimeout).outcome = .ok info := by
  constructor
  · rintro ⟨i, j, listed, hlists, hserver, houtcome⟩
    exact ⟨⟨i, listed, hlists, List.mem_of_getElem? hserver⟩, houtcome⟩
  · rintro ⟨⟨i, listed, hlists, hmem⟩, houtcome⟩
    obtain ⟨j, hserver⟩ := List.mem_iff_getElem?.mp hmem
    exact ⟨i, j, listed, hlists, hserver, houtcome⟩

/-- **The addresses that the client returns** are those on the lists of its directories at which a
server answers. -/
theorem mem_addresses_discoverWithin_iff :
    a ∈ (c.discoverWithin n masterTimeout serverTimeout).servers.records.map (·.address) ↔
      (∃ master ∈ c.settings.discovery.masterServers, ∃ directory listed,
        n.resolve master = .ok directory ∧
        (c.serverList n directory masterTimeout).outcome = .ok listed ∧ a ∈ listed) ∧
      ∃ info, (c.serverInfoAt n a serverTimeout).outcome = .ok info := by
  obtain ⟨s, hreaches, hset⟩ := exists_returned_steady c n masterTimeout serverTimeout
  rw [hreaches.sound.mem_addresses_iff hset, mem_addresses_answers_iff,
    ← exists_lists_steady_iff]
  refine and_congr_right fun hlisted => ?_
  constructor
  · rintro ⟨i, j, info, hfinds⟩
    exact ⟨info, (exists_finds_steady_iff.mp ⟨i, j, hfinds⟩).2⟩
  · rintro ⟨info, houtcome⟩
    obtain ⟨i, j, hfinds⟩ := exists_finds_steady_iff.mpr ⟨hlisted, houtcome⟩
    exact ⟨i, j, info, hfinds⟩

/-- Each record that the client returns is what it obtains from the server at its address. -/
theorem outcome_of_mem_discoverWithin
    (h : info ∈ (c.discoverWithin n masterTimeout serverTimeout).servers.records) :
    (c.serverInfoAt n info.address serverTimeout).outcome = .ok info := by
  obtain ⟨s, hreaches, hset⟩ := exists_returned_steady c n masterTimeout serverTimeout
  exact (exists_finds_steady_iff.mp (finds_of_returned hreaches.sound hset h)).2

end Steady

/-! ## 5. Discoveries -/

/-- **A discovery returns exactly what was found.**  Whatever the schedule of its tasks is, it ends,
and then a set has been returned.  The records of the set have different addresses; an address is
among them exactly if it is on a list that a directory answered with, and a query to it succeeded;
and every record is what such a query found.  So failures make no difference to the addresses: on
any other occasion with the same successes they are the same.

All this is true of the set that `Client.discoverWithin` makes, for it is the one that some schedule
returns if every enquiry meets the same network; then its addresses and its records are said in
terms of what the client obtains from that network. -/
theorem discovers_found (o : Occasion) (s : Search) (h : Search.Reaches (.start o.reports) s) :
    -- On every schedule.
    WellFounded (fun next s : Search => s.Step next) ∧
    ((∀ next, ¬ s.Step next) ↔ ∃ set, s.collection.returned = some set) ∧
    (∀ set, s.collection.returned = some set → ∀ found : List ServerInfo, found.Perm set.records →
      (found.map (·.address)).Nodup ∧
      (∀ a, a ∈ found.map (·.address) ↔
        (∃ i listed, o.Lists i listed ∧ a ∈ listed) ∧ ∃ i j info, o.Finds i j a info) ∧
      (∀ info ∈ found, ∃ i j, o.Finds i j info.address info) ∧
      ∀ (other : Occasion) (t : Search), Search.Reaches (.start other.reports) t →
        ∀ others, t.collection.returned = some others →
          withoutFailures other.reports = withoutFailures o.reports →
          ∀ a, a ∈ others.records.map (·.address) ↔ a ∈ found.map (·.address)) ∧
    -- By the client.
    ∀ (c : Client) (n : Network) (masterTimeout serverTimeout : Duration),
      (∃ t, Search.Reaches (.start (steady c n masterTimeout serverTimeout).reports) t ∧
        t.collection.returned = some (c.discoverWithin n masterTimeout serverTimeout).servers) ∧
      ((c.discoverWithin n masterTimeout serverTimeout).servers.records.map (·.address)).Nodup ∧
      (∀ a, a ∈ (c.discoverWithin n masterTimeout serverTimeout).servers.records.map (·.address) ↔
        (∃ master ∈ c.settings.discovery.masterServers, ∃ directory listed,
          n.resolve master = .ok directory ∧
          (c.serverList n directory masterTimeout).outcome = .ok listed ∧ a ∈ listed) ∧
        ∃ info, (c.serverInfoAt n a serverTimeout).outcome = .ok info) ∧
      (∀ info ∈ (c.discoverWithin n masterTimeout serverTimeout).servers.records,
        (c.serverInfoAt n info.address serverTimeout).outcome = .ok info) ∧
      ∀ (other : Occasion) (t : Search), Search.Reaches (.start other.reports) t →
        ∀ others, t.collection.returned = some others →
          withoutFailures other.reports =
            withoutFailures (steady c n masterTimeout serverTimeout).reports →
          ∀ a, a ∈ others.records.map (·.address) ↔ a ∈ (c.discoverWithin n masterTimeout
            serverTimeout).servers.records.map (·.address) := by
  have hs := h.sound
  refine ⟨Search.wellFounded_step, ⟨fun hstuck => ?_, ?_⟩, fun set hset found hfound => ?_,
    fun c n masterTimeout serverTimeout => ?_⟩
  · by_contra hnone
    have hwaiting : s.collection.returned = none := by
      simpa [Option.eq_none_iff_forall_ne_some] using hnone
    obtain ⟨next, hstep⟩ := hs.exists_step hwaiting
    exact hstuck next hstep
  · rintro ⟨set, hset⟩ next
    exact hs.not_step hset
  · have hmem : ∀ a, a ∈ found.map (·.address) ↔ a ∈ set.records.map (·.address) := fun a =>
      (hfound.map _).mem_iff
    refine ⟨(hfound.map _).nodup_iff.mpr set.distinct, fun a => ?_, fun info hinfo => ?_,
      fun other t ht others hothers heq a => ?_⟩
    · rw [hmem, hs.mem_addresses_iff hset, mem_addresses_answers_iff]
    · exact finds_of_returned hs hset (hfound.mem_iff.mp hinfo)
    · rw [hmem, hs.mem_addresses_congr hset ht.sound hothers heq]
  · have hreturned := exists_returned_steady c n masterTimeout serverTimeout
    refine ⟨hreturned, ServerSet.distinct _, fun a => mem_addresses_discoverWithin_iff,
      fun info hinfo => outcome_of_mem_discoverWithin hinfo,
      fun other t ht others hothers heq a => ?_⟩
    obtain ⟨r, hr, hset⟩ := hreturned
    exact hr.sound.mem_addresses_congr hset ht.sound hothers heq

/-- A server that answers. -/
def answering : SocketAddress := .v4 ⟨127, 0, 0, 1⟩ 8303

/-- A server that does not. -/
def silent : SocketAddress := .v4 ⟨127, 0, 0, 1⟩ 8304

/-- A network with one directory, which lists both servers, one of them twice. -/
def halfSilent : Network where
  resolve name :=
    if name = "listing:8300" then .ok (.v4 ⟨127, 0, 0, 1⟩ 8300) else .error (.invalidIp name)
  ask e :=
    match e.query with
    | .serverList =>
      { outcome := .ok (List.replicate 9 0 ++ Query.serverList.answerSignature
          ++ [answering, silent, answering].flatMap SocketAddress.toEntry) }
    | .serverCount => .failure .timeout
    | .serverInfo =>
      if e.peer = answering then
        { outcome := .ok (List.replicate 9 0 ++ Query.serverInfo.answerSignature
            ++ packServerInfo 0 default) }
      else .failure .timeout

/-- A client of two directories, one of which cannot be reached. -/
def halfSilentOccasion : Occasion :=
  steady { Client.default with
      settings.discovery.masterServers := ["missing:8300", "listing:8300"] }
    halfSilent (.ofSeconds 5 0) (.ofSeconds 16 0)

/-- The server that answers is returned, and the one that does not is not. -/
theorem discovers_found_halfSilent :
    ∃ s, Search.Reaches (.start halfSilentOccasion.reports) s ∧
      s.collection.returned = some (halfSilentOccasion.client.discoverWithin halfSilent
        halfSilentOccasion.masterTimeout halfSilentOccasion.serverTimeout).servers ∧
      answering ∈ (halfSilentOccasion.client.discoverWithin halfSilent
        halfSilentOccasion.masterTimeout
        halfSilentOccasion.serverTimeout).servers.records.map (·.address) ∧
      silent ∉ (halfSilentOccasion.client.discoverWithin halfSilent
        halfSilentOccasion.masterTimeout
        halfSilentOccasion.serverTimeout).servers.records.map (·.address) := by
  obtain ⟨-, -, -, hclient⟩ := discovers_found halfSilentOccasion _ .refl
  obtain ⟨⟨s, hreaches, hset⟩, -⟩ := hclient halfSilentOccasion.client halfSilent
    halfSilentOccasion.masterTimeout halfSilentOccasion.serverTimeout
  obtain ⟨-, -, hfound, -⟩ := discovers_found halfSilentOccasion s hreaches
  obtain ⟨-, haddresses, -⟩ := hfound _ hset _ (.refl _)
  have hlists : halfSilentOccasion.Lists 1 [answering, silent, answering] :=
    ⟨"listing:8300", .v4 ⟨127, 0, 0, 1⟩ 8300, rfl, rfl, by decide +kernel⟩
  refine ⟨s, hreaches, hset, (haddresses _).mpr ⟨⟨1, _, hlists, by decide⟩, ?_⟩, ?_⟩
  · refine ⟨1, 0, { (default : ServerInfo) with address := answering }, _, hlists, rfl, ?_⟩
    decide +kernel
  · rw [haddresses]
    rintro ⟨-, i, j, info, listed, -, -, houtcome⟩
    have herror : (halfSilentOccasion.client.serverInfoAt halfSilent silent
        halfSilentOccasion.serverTimeout).outcome = .error .timeout := by decide +kernel
    exact nomatch herror.symm.trans houtcome

end Occasion

end ServerDiscovery
