import ServerDiscovery.Json.Reader
import ServerDiscovery.Message.ServerInfo
import ServerDiscovery.Net.AddressText

/-! # Status records as JSON

A record is an object with a member for each of its parts, and perhaps others, which mean nothing.
The counts are taken as they are.
-/

namespace ServerDiscovery

/-- The client that a value describes. -/
def ClientInfo.ofJson? (v : Json.Value) : Option ClientInfo := do
  match ← v.fields? ["name", "clan", "country", "score", "is_player"] with
  | [name, clan, country, score, isPlayer] =>
    return { name := ← name.text?, clan := ← clan.text?, country := ← country.int32?,
             score := ← score.int32?, isPlayer := ← isPlayer.boolean? }
  | _ => none

/-- The names of the members of a record, in order. -/
def ServerInfo.memberNames : List String :=
  ["address", "version", "name", "hostname", "map", "game_type", "flags", "skill_level",
    "num_players", "max_players", "num_clients", "max_clients", "clients"]

/-- The record that a value describes. -/
def ServerInfo.ofJson? (v : Json.Value) : Option ServerInfo := do
  match ← v.fields? ServerInfo.memberNames with
  | [address, version, name, hostname, map, gameType, flags, skillLevel, numPlayers, maxPlayers,
      numClients, maxClients, clients] =>
    return { address := ← SocketAddress.ofText? (← address.text?)
             version := ← version.text?
             name := ← name.text?
             hostname := ← hostname.text?
             map := ← map.text?
             gameType := ← gameType.text?
             flags := ← flags.int32?
             skillLevel := ← skillLevel.int32?
             numPlayers := ← numPlayers.int32?
             maxPlayers := ← maxPlayers.int32?
             numClients := ← numClients.int32?
             maxClients := ← maxClients.int32?
             clients := ← (← clients.items?).mapM ClientInfo.ofJson? }
  | _ => none

/-- The record that a JSON text describes. -/
def ServerInfo.ofJsonText? (text : String) : Option ServerInfo :=
  (Json.parse? text).bind ServerInfo.ofJson?

end ServerDiscovery
