import IlpConnector.Ccp.Codec
import IlpConnector.Packet.Record
import IlpConnector.Routing.ForwardingTable

/-!
# Routes and route messages as documents
-/

namespace IlpConnector

namespace RouteControl

def toDocument (c : RouteControl) : Document :=
  .table [("mode", .text c.mode.name), ("table_id", .text c.tableId.text),
    ("epoch", .nat c.epoch.toNat), ("features", .texts c.features)]

end RouteControl

def RouteProp.toDocument (p : RouteProp) : Document :=
  .table [("optional", .bool p.isOptional), ("transitive", .bool p.isTransitive),
    ("partial", .bool p.isPartial), ("utf8", .bool p.isText), ("id", .nat p.id.toNat),
    ("value", .octets p.value)]

def Announcement.toDocument (a : Announcement) : Document :=
  .table [("prefix", .text a.target.text), ("path", .texts (a.path.map Address.text)),
    ("auth", .octets a.auth.toList), ("props", .list (a.props.map RouteProp.toDocument))]

namespace RouteUpdate

def toDocument (u : RouteUpdate) : Document :=
  .table [("table_id", .text u.tableId.text), ("current", .nat u.currentEpoch.toNat),
    ("from", .nat u.fromEpoch.toNat), ("to", .nat u.toEpoch.toNat),
    ("hold_down", .nat u.holdDown.toNat), ("speaker", .text u.speaker.text),
    ("new", .list (u.announced.map Announcement.toDocument)),
    ("withdrawn", .texts (u.withdrawn.map AddressPrefix.text)),
    ("heartbeat", .bool u.isHeartbeat)]

end RouteUpdate

def Route.toDocument (r : Route) : Document :=
  .table [("prefix", .text r.target.text), ("next_hop", .text r.nextHop.text),
    ("auth", .octets r.auth.toList), ("path", .texts (r.path.map Address.text))]

def RouteChange.toDocument (c : RouteChange) : Document :=
  .list [.nat c.epoch.toNat, .text c.target.text, .ofOption Route.toDocument c.route]

namespace Prepare

/-- The route message in a request, whenever it expires, or else its data. -/
def contentEntry (p : Prepare) : String × Document :=
  match RouteControl.ofPrepareAnyTime p, RouteUpdate.ofPrepareAnyTime p with
  | .ok c, _ => ("control", c.toDocument)
  | _, .ok u => ("update", u.toDocument)
  | _, _ => ("data", .octets p.data)

/-- An expiry not far from now, as the nearest whole number of seconds from now, or else as it is. -/
def expiryDocument (now : Instant) (p : Prepare) : Document :=
  let away := p.expiresAt.nanos - now.nanos
  if away.natAbs < 100 * 86400 * Instant.nanosPerSecond.toNat then
    .table [("in_s", .int ((away + Instant.nanosPerSecond / 2) / Instant.nanosPerSecond))]
  else p.expiresAt.toDocument

/-- A request that a neighbour has received. -/
def sentDocument (now : Instant) (p : Prepare) : Document :=
  .table [("amount", .amount p.amount), ("destination", .text p.destination.text),
    ("condition", .octets p.condition.toList), ("expires", p.expiryDocument now), p.contentEntry]

end Prepare

end IlpConnector
