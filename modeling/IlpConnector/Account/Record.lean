import IlpConnector.Document.Fields
import IlpConnector.Settings

/-!
# Settings as documents

The records in which the settings of accounts and of a node are written and from which they are
read.  Fields that are not known are ignored.
-/

namespace IlpConnector

open Document (Scalars)

namespace AccountId

def read (r : Scalars) (d : Document) : Option AccountId := do
  ofText? (← r.text d)

end AccountId

namespace AccountSettings

def fieldNames : List String :=
  ["id", "description", "relationship", "asset_code", "asset_scale", "maximum_packet_amount",
    "rate_limit", "link_type", "send_routes", "receive_routes", "custom_settings"]

/-- The limit in a record of its own. -/
def readRateLimit (r : Scalars) (d : Document) : Option (Option UInt32) := do
  let field ← r.fields ["max_packets_per_second"] d
  let limit ← Scalars.optional (r.nat 32) (field "max_packets_per_second")
  return limit.map .ofNat

def read (r : Scalars) (d : Document) : Option AccountSettings := do
  let field ← r.fields fieldNames d
  let id ← AccountId.read r (← field "id")
  let description ← Scalars.orElse "" r.text (field "description")
  let relationship ← Relationship.ofText? (← r.text (← field "relationship"))
  let assetCode ← r.text (← field "asset_code")
  let assetScale ← r.nat 8 (← field "asset_scale")
  let maximum ← Scalars.optional (r.nat 64) (field "maximum_packet_amount")
  let rate ← Scalars.orElse none (readRateLimit r) (field "rate_limit")
  let linkType ← r.text (← field "link_type")
  let sendRoutes ← Scalars.optional r.bool (field "send_routes")
  let receiveRoutes ← Scalars.optional r.bool (field "receive_routes")
  let custom ← Scalars.orElse [] r.texts (field "custom_settings")
  return {
    id, description, relationship, assetCode
    assetScale := .ofNat assetScale
    maximumPacketAmount := maximum.map .ofNat
    maxPacketsPerSecond := rate
    linkType := .ofText linkType
    sendRoutes, receiveRoutes
    customSettings := Dict.ofList custom }

def toEntries (a : AccountSettings) : List (String × Document) :=
  [("id", .text a.id.text), ("description", .text a.description),
    ("relationship", .text a.relationship.name), ("asset_code", .text a.assetCode),
    ("asset_scale", .int a.assetScale.toNat),
    ("maximum_packet_amount", .ofOption (fun n => .int n.toNat) a.maximumPacketAmount),
    ("rate_limit",
      .table [("max_packets_per_second", .ofOption (fun n => .int n.toNat) a.maxPacketsPerSecond)]),
    ("link_type", .text a.linkType.name), ("send_routes", .ofOption .bool a.sendRoutes),
    ("receive_routes", .ofOption .bool a.receiveRoutes),
    ("custom_settings", .table (a.customSettings.entries.map fun e => (e.1, .text e.2)))]

end AccountSettings

namespace RoutingSettings

def fieldNames : List String :=
  ["route_broadcast_enabled", "route_broadcast_interval_ms", "route_expiry_ms",
    "max_epochs_per_routing_table"]

def read (r : Scalars) (d : Document) : Option RoutingSettings := do
  let field ← r.fields fieldNames d
  let unset : RoutingSettings := {}
  let enabled ← Scalars.orElse unset.broadcastEnabled r.bool (field "route_broadcast_enabled")
  let interval ← Scalars.orElse unset.broadcastInterval.toNat (r.nat 64)
    (field "route_broadcast_interval_ms")
  let expiry ← Scalars.orElse unset.routeExpiry.toNat (r.nat 64) (field "route_expiry_ms")
  let epochs ← Scalars.orElse unset.maxEpochs.toNat (r.nat 32) (field "max_epochs_per_routing_table")
  return ⟨enabled, .ofNat interval, .ofNat expiry, .ofNat epochs⟩

def toDocument (s : RoutingSettings) : Document :=
  .table [("route_broadcast_enabled", .bool s.broadcastEnabled),
    ("route_broadcast_interval_ms", .int s.broadcastInterval.toNat),
    ("route_expiry_ms", .int s.routeExpiry.toNat),
    ("max_epochs_per_routing_table", .int s.maxEpochs.toNat)]

end RoutingSettings

namespace StaticRoute

def read (r : Scalars) (d : Document) : Option StaticRoute := do
  let field ← r.fields ["target_prefix", "peer_account_id"] d
  let target ← (AddressPrefix.ofText (← r.text (← field "target_prefix"))).toOption
  let account ← AccountId.read r (← field "peer_account_id")
  return ⟨target, account⟩

def toDocument (s : StaticRoute) : Document :=
  .table [("target_prefix", .text s.target.text), ("peer_account_id", .text s.account.text)]

end StaticRoute

namespace Address

def read (r : Scalars) (d : Document) : Option Address := do
  (ofText (← r.text d)).toOption

end Address

namespace ConnectorSettings

def read (r : Scalars) (d : Document) : Option ConnectorSettings := do
  let field ← r.fields ["operator_address", "global_routing_settings", "static_routes"] d
  let operator ← Scalars.optional (Address.read r) (field "operator_address")
  let routing ← Scalars.orElse {} (RoutingSettings.read r) (field "global_routing_settings")
  let routes ← Scalars.orElse [] (Scalars.items (StaticRoute.read r)) (field "static_routes")
  return ⟨operator, routing, routes⟩

def toDocument (s : ConnectorSettings) : Document :=
  .table [("operator_address", .ofOption (fun a => .text a.text) s.operatorAddress),
    ("global_routing_settings", s.routing.toDocument),
    ("static_routes", .list (s.staticRoutes.map StaticRoute.toDocument))]

end ConnectorSettings

end IlpConnector
