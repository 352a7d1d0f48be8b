import ServerDiscovery.Datagram.Layout
import ServerDiscovery.Net.Address
import ServerDiscovery.Wire.Text

/-! # Status records

A server answers with fields: the number of the token, five texts, six integers, and then for each
client two texts and three integers.  The number of clients is one of the integers, so it decides
how much is read; the counts have to be consistent before a single client is read.  What follows the
last client is ignored.

`packServerInfo` writes the fields in the same order.
-/

namespace ServerDiscovery

/-- A client on a server. -/
structure ClientInfo where
  name : String
  clan : String
  country : Int32
  score : Int32
  /-- The client plays, rather than watches. -/
  isPlayer : Bool
deriving DecidableEq, Repr, Inhabited

/-- What a server says about itself, without its clients. -/
structure ServerStatus where
  version : String
  name : String
  hostname : String
  map : String
  gameType : String
  flags : Int32
  skillLevel : Int32
  numPlayers : Int32
  maxPlayers : Int32
  numClients : Int32
  maxClients : Int32
deriving DecidableEq, Repr, Inhabited

/-- The status record of the server at `address`. -/
structure ServerInfo extends ServerStatus where
  /-- Where the record came from, which is what identifies the server. -/
  address : SocketAddress
  clients : List ClientInfo
deriving DecidableEq, Repr, Inhabited

/-- Whether a password is needed to join. -/
def ServerStatus.isPassworded (s : ServerStatus) : Bool := s.flags &&& 1 != 0

/-- The largest number of clients that a server may report. -/
def clientLimit : Nat := 64

/-- Whether the counts of a status agree: no more players than clients, and no more clients than
any server has. -/
def ServerStatus.Consistent (s : ServerStatus) : Prop :=
  0 ≤ s.numPlayers.toInt ∧ s.numPlayers.toInt ≤ s.numClients.toInt ∧
    s.numClients.toInt ≤ clientLimit
    ∧ 0 ≤ s.maxPlayers.toInt ∧ s.maxPlayers.toInt ≤ s.maxClients.toInt
    ∧ s.maxClients.toInt ≤ clientLimit

instance (s : ServerStatus) : Decidable s.Consistent := by
  unfold ServerStatus.Consistent; infer_instance

/-- What can be wrong with a status record. -/
inductive InfoFault where
  | kind (error : KindError)
  | field (error : Wire.FieldError)
  | inconsistentCounts (status : ServerStatus)
deriving DecidableEq, Repr

/-- What a person is told about an info fault. -/
def InfoFault.message : InfoFault → String
  | .kind e => e.message
  | .field e => e.message
  | .inconsistentCounts s =>
    "inconsistent counts: players " ++ toString s.numPlayers.toInt ++ "/"
      ++ toString s.maxPlayers.toInt ++ ", clients " ++ toString s.numClients.toInt ++ "/"
      ++ toString s.maxClients.toInt

/-! ## 1. Reading -/

/-- Reads fields from the front of what is left. -/
abbrev FieldReader := StateT Bytes (Except Wire.FieldError)

/-- Read an integer. -/
def readInteger : FieldReader Int32 := Wire.unpackInteger

/-- Read a text. -/
def readText : FieldReader String := Wire.unpackText

/-- Read a status. -/
def readStatus : FieldReader ServerStatus := do
  let version ← readText
  let name ← readText
  let hostname ← readText
  let map ← readText
  let gameType ← readText
  let flags ← readInteger
  let skillLevel ← readInteger
  let numPlayers ← readInteger
  let maxPlayers ← readInteger
  let numClients ← readInteger
  let maxClients ← readInteger
  return { version, name, hostname, map, gameType, flags, skillLevel, numPlayers, maxPlayers,
           numClients, maxClients }

/-- Read a client.  Any number but zero says that it plays. -/
def readClient : FieldReader ClientInfo := do
  let name ← readText
  let clan ← readText
  let country ← readInteger
  let score ← readInteger
  let playing ← readInteger
  return { name, clan, country, score, isPlayer := playing != 0 }

/-- Read `count` clients. -/
def readClients : (count : Nat) → FieldReader (List ClientInfo)
  | 0 => return []
  | count + 1 => do
    let client ← readClient
    let others ← readClients count
    return client :: others

/-- The record that a payload holds. -/
def readServerInfo (source : SocketAddress) (fields : Bytes) : Except InfoFault ServerInfo :=
  match (do let _token ← readInteger; readStatus : FieldReader ServerStatus) fields with
  | .error e => .error (.field e)
  | .ok (status, rest) =>
    if status.Consistent then
      match readClients status.numClients.toInt.toNat rest with
      | .error e => .error (.field e)
      | .ok (clients, _) => .ok { status with address := source, clients }
    else .error (.inconsistentCounts status)

/-- The record that a server at `source` answers with. -/
def parseServerInfo (response : Bytes) (source : SocketAddress) : Except InfoFault ServerInfo :=
  match expectKind (.answer .serverInfo) response with
  | .error e => .error (.kind e)
  | .ok () => readServerInfo source (payload response)

/-! ## 2. Writing -/

/-- The fields of a status. -/
def packStatus (s : ServerStatus) : Bytes :=
  Wire.packText s.version ++ Wire.packText s.name ++ Wire.packText s.hostname ++ Wire.packText s.map
    ++ Wire.packText s.gameType ++ Wire.packInteger s.flags ++ Wire.packInteger s.skillLevel
    ++ Wire.packInteger s.numPlayers ++ Wire.packInteger s.maxPlayers
    ++ Wire.packInteger s.numClients ++ Wire.packInteger s.maxClients

/-- The fields of a client, with the number that says whether it plays. -/
def packClient (c : ClientInfo) (playing : Int32) : Bytes :=
  Wire.packText c.name ++ Wire.packText c.clan ++ Wire.packInteger c.country
    ++ Wire.packInteger c.score ++ Wire.packInteger playing

/-- The payload of a record, with the number of the token in front. -/
def packServerInfo (token : Int32) (info : ServerInfo) : Bytes :=
  Wire.packInteger token ++ packStatus info.toServerStatus
    ++ info.clients.flatMap fun c => packClient c (if c.isPlayer then 1 else 0)

end ServerDiscovery
