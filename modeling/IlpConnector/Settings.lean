import IlpConnector.Account.Basic
import IlpConnector.Address

/-!
# Settings of a node
-/

namespace IlpConnector

/-- How routes are broadcast. -/
structure RoutingSettings where
  broadcastEnabled : Bool := true
  /-- Milliseconds between two updates to a peer. -/
  broadcastInterval : UInt64 := 30000
  /-- Milliseconds for which a peer may hold a route, and for which an update is valid. -/
  routeExpiry : UInt64 := 45000
  /-- The most changes that one update tells. -/
  maxEpochs : UInt32 := 50
deriving DecidableEq, Inhabited

/-- A route that the operator has set. -/
structure StaticRoute where
  target : AddressPrefix
  account : AccountId
deriving DecidableEq

structure ConnectorSettings where
  operatorAddress : Option Address := none
  routing : RoutingSettings := {}
  staticRoutes : List StaticRoute := []
deriving DecidableEq

end IlpConnector
