import ServerDiscovery.Exchange.Line

/-! # Scripted peers

A peer that acts by a script: it reacts to each datagram with the next item of a list, and with a
last item for ever once the list is used up.  Token requests and queries have a script each.
-/

namespace ServerDiscovery

/-- What a script says about a datagram, which may have to be repeated in part. -/
abbrev ScriptItem := (request : Bytes) → Reaction

/-- Reactions to a sequence of datagrams. -/
structure Script where
  first : List ScriptItem := []
  /-- What comes after those. -/
  last : ScriptItem := fun _ => .answer []

/-- The next item, and the script behind it. -/
def Script.next (s : Script) : ScriptItem × Script :=
  match s.first with
  | [] => (s.last, s)
  | item :: rest => (item, { s with first := rest })

/-- A peer with a script for token requests and one for queries. -/
structure ScriptedPeer where
  token : Script := {}
  query : Script := {}

/-- The datagram with the client's half of the token, as a token request states it, at the place
where a token response repeats it. -/
def echoNonce (request datagram : Bytes) : Bytes :=
  datagram.take 3 ++ (request.drop 8).take 4 ++ datagram.drop 7

namespace ScriptItem

/-- Nothing comes back. -/
def silence : ScriptItem := fun _ => .answer []

/-- The given things come back. -/
def sends (arrivals : List Arrival) : ScriptItem := fun _ => .answer arrivals

/-- A datagram comes back in which the client's half of the token is put. -/
def echoes (delay : Duration) (datagram : Bytes) : ScriptItem := fun request =>
  .answer [⟨delay, .ok (echoNonce request datagram)⟩]

/-- Only `written` bytes go out. -/
def cutsShort (written : Nat) : ScriptItem := fun _ => .short written

/-- The datagram does not go out. -/
def refuses (error : IoError) : ScriptItem := fun _ => .refuse error

/-- All that the given items do. -/
def all (items : List ScriptItem) : ScriptItem := fun request =>
  items.foldr (fun item rest => (item request).and rest) (.answer [])

end ScriptItem

/-- How a scripted peer reacts: the first byte tells token requests from queries. -/
def ScriptedPeer.react (p : ScriptedPeer) (datagram : Bytes) : Reaction × ScriptedPeer :=
  if datagram.head? = some controlFlag then
    let (item, token) := p.token.next
    (item datagram, { p with token })
  else
    let (item, query) := p.query.next
    (item datagram, { p with query })

end ServerDiscovery
