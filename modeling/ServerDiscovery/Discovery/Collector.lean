import ServerDiscovery.Discovery.ServerSet
import ServerDiscovery.Metrics

/-! # The collector

Queries run at the same time, and none of them touches the set of records.  Each holds a sink, a way
to send records into a channel of bounded size; a single collector takes them out and owns the set.
It is done when no sink is left and the channel is empty, so the set is handed out only after every
record that was sent is in it.

The operations here are the steps of that system.  A writer that finds the channel full waits, which
means that the collector takes out a record first.
-/

namespace ServerDiscovery

/-- The number of records that the channel holds. -/
def collectorCapacity : Nat := 512

/-- A collector, with its channel. -/
structure Collector where
  /-- The number of sinks in use. -/
  sinks : Nat
  /-- What was sent and not taken out, oldest first. -/
  channel : List ServerInfo
  servers : ServerSet
  /-- The steps of counting, in order. -/
  counts : List Count

namespace Collector

/-- A collector with its first sink. -/
def start : Collector := ⟨1, [], .empty, []⟩

/-- Whether a record can be sent. -/
def hasRoom (c : Collector) : Bool := c.channel.length < collectorCapacity

/-- One more sink. -/
def addSink (c : Collector) : Collector := { c with sinks := c.sinks + 1 }

/-- One sink less. -/
def dropSink (c : Collector) : Collector := { c with sinks := c.sinks - 1 }

/-- Put a record into the set, and count it if its address is new. -/
def keep (c : Collector) (info : ServerInfo) : Collector :=
  let (fresh, servers) := c.servers.insert info
  { c with servers, counts := if fresh then c.counts ++ [.serverDiscovered] else c.counts }

/-- Take the oldest record out of the channel. -/
def receive (c : Collector) : Collector :=
  match c.channel with
  | [] => c
  | info :: rest => { c with channel := rest }.keep info

/-- Take everything out of the channel. -/
def drain (c : Collector) : Collector :=
  c.channel.foldl keep { c with channel := [] }

/-- Send a record, after waiting for room. -/
def send (c : Collector) (info : ServerInfo) : Collector :=
  let c := if c.hasRoom then c else c.receive
  { c with channel := c.channel ++ [info] }

/-- The records of a writer that has its own sink, one after the other. -/
def write (c : Collector) (records : List ServerInfo) : Collector :=
  (records.foldl send c.addSink).dropSink

/-- The collector after the first sink is dropped and everything sent is in the set. -/
def finish (c : Collector) : Collector := c.dropSink.drain

/-- What is collected from writers that follow one another. -/
def collect (writers : List (List ServerInfo)) : Collector := (writers.foldl write start).finish

end Collector

end ServerDiscovery
