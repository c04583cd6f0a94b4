import IlpConnector.Account.Basic
import IlpConnector.Ccp.Message
import IlpConnector.Digest.Sha256

/-!
# The forwarding table

The routes of a node, one for each prefix, and a log of every change to them.  A change takes one
epoch: the entry of epoch `n` is the change after `n` others since the table started, and the current
epoch is the number of changes so far.  What changes nothing is not logged.

A table that is reset starts over under another id, with neither routes nor a log.
-/

namespace IlpConnector

/-- Where packets for a prefix go. -/
structure Route where
  target : AddressPrefix
  nextHop : AccountId
  /-- A tag that shows where the route came from. -/
  auth : Octets 32
  /-- The nodes through which the route was announced, the nearest first. -/
  path : List Address
deriving DecidableEq

namespace Route

/-- A route to an account of the node itself; its tag is made with the node's secret. -/
def own (target : AddressPrefix) (nextHop : AccountId) (secret : Bytes) : Route :=
  ⟨target, nextHop, Hmac.sign secret target.bytes, []⟩

/-- The tag with which a route is passed on that came with the given one. -/
def rehash (auth : Octets 32) : Octets 32 := Sha256.digest auth.toList

end Route

/-- A change: the route that a prefix got at an epoch, or none if it lost its route. -/
structure RouteChange where
  epoch : UInt32
  target : AddressPrefix
  route : Option Route
deriving DecidableEq

structure ForwardingTable where
  id : TableId
  routes : Dict AddressPrefix Route := ∅
  log : List RouteChange := []

namespace ForwardingTable

/-- The number of changes so far. -/
def epoch (t : ForwardingTable) : UInt32 := .ofNat t.log.length

/-- The changes from an epoch on, so many at most. -/
def changesFrom (t : ForwardingTable) (first max : UInt32) : List RouteChange :=
  (t.log.drop first.toNat).take max.toNat

def logged (t : ForwardingTable) (target : AddressPrefix) (route : Option Route) :
    List RouteChange :=
  t.log ++ [⟨t.epoch, target, route⟩]

def get? (t : ForwardingTable) (target : AddressPrefix) : Option Route := t.routes.get? target

/-- Sets the route for its prefix, and tells whether that is a change. -/
def set (t : ForwardingTable) (r : Route) : Bool × ForwardingTable :=
  if t.get? r.target = some r then (false, t)
  else (true, { t with routes := t.routes.insert r.target r, log := t.logged r.target (some r) })

/-- Takes away the route for a prefix, and tells which one it was. -/
def withdraw (t : ForwardingTable) (target : AddressPrefix) : Option Route × ForwardingTable :=
  match t.get? target with
  | none => (none, t)
  | some r => (some r, { t with routes := t.routes.erase target, log := t.logged target none })

/-- Takes away the routes for prefixes, one after the other. -/
def withdrawAll (t : ForwardingTable) (targets : List AddressPrefix) : ForwardingTable :=
  targets.foldl (fun t target => (t.withdraw target).2) t

/-- The prefixes that lead to an account, in order. -/
def targetsVia (t : ForwardingTable) (account : AccountId) : List AddressPrefix :=
  (t.routes.filter fun _ r => r.nextHop = account).keys

/-- Takes away every route to an account, and tells the prefixes in order. -/
def withdrawVia (t : ForwardingTable) (account : AccountId) :
    List AddressPrefix × ForwardingTable :=
  (t.targetsVia account, t.withdrawAll (t.targetsVia account))

/-- The table of another id that has nothing yet. -/
def fresh (id : TableId) : ForwardingTable := { id }

/-- The most specific route for an address. -/
def best? (t : ForwardingTable) (a : Address) : Option Route :=
  deepestMatch Route.target a t.routes.values

/-- The account that leads to an address. -/
def resolve (t : ForwardingTable) (a : Address) : Option AccountId :=
  (t.best? a).map Route.nextHop

end ForwardingTable

end IlpConnector
