import ServerDiscovery.Discovery.Collector
import ServerDiscovery.Discovery.Network

/-! # The fan-out

Every directory is asked for its list, and every server on a list for its record, once for each time
that it is listed.  Whatever fails contributes nothing and stops nothing else, so a discovery has no
failure of its own: it is given by the outcomes of the enquiries, and yields the records of those
that succeeded.
-/

namespace ServerDiscovery

/-- What came of a directory: the servers on its list, each with the outcome of asking for its
record. -/
abbrev DirectoryReport := Except Error (List (SocketAddress × Except Error ServerInfo))

/-- What a discovery found. -/
structure Discovery where
  servers : ServerSet
  /-- The steps of counting, in order. -/
  counts : List Count

namespace Discovery

/-- The record that an outcome contributes. -/
def recordsOf : SocketAddress × Except Error ServerInfo → List ServerInfo
  | (_, .ok info) => [info]
  | (_, .error _) => []

/-- The records of the servers on a list, one writer for each. -/
def writersOf : DirectoryReport → List (List ServerInfo)
  | .ok listed => listed.map recordsOf
  | .error _ => []

/-- The steps of counting for a directory. -/
def directoryCounts : DirectoryReport → List Count
  | .ok _ => [.masterServerAnswered]
  | .error _ => []

/-- What is found if the directories come to the given ends. -/
def ofReports (reports : List DirectoryReport) : Discovery :=
  let collected := Collector.collect (reports.flatMap writersOf)
  { servers := collected.servers
    counts := reports.flatMap directoryCounts ++ collected.counts }

end Discovery

/-- How a fan-out asks. -/
structure FanOut where
  /-- The address of a directory. -/
  resolve : String → Except Error SocketAddress
  /-- The servers that a directory lists. -/
  list : SocketAddress → Reply (List SocketAddress)
  /-- The record of a server. -/
  info : SocketAddress → Reply ServerInfo

namespace FanOut

/-- What comes of a directory. -/
def report (f : FanOut) (master : String) : DirectoryReport := do
  let directory ← f.resolve master
  let listed ← (f.list directory).outcome
  return listed.map fun server => (server, (f.info server).outcome)

/-- What the exchanges with a directory and the servers on its list count. -/
def exchangeCounts (f : FanOut) (master : String) : List Count :=
  match f.resolve master with
  | .error _ => []
  | .ok directory =>
    let listing := f.list directory
    listing.counts ++ match listing.outcome with
      | .ok listed => listed.flatMap fun server => (f.info server).counts
      | .error _ => []

/-- What is found by asking the given directories. -/
def discover (f : FanOut) (masters : List String) : Discovery :=
  let found := Discovery.ofReports (masters.map f.report)
  { found with counts := masters.flatMap f.exchangeCounts ++ found.counts }

end FanOut

end ServerDiscovery
