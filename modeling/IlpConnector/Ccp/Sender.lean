import IlpConnector.Ccp.Message
import IlpConnector.Ccp.Registration
import IlpConnector.Routing.ForwardingTable
import IlpConnector.Settings

/-!
# Telling a neighbour about routes

A sender tells one neighbour the changes of the forwarding table, some epochs at a time, from the
epoch that the neighbour has asked for.  What it has told counts as known, whether or not it has
arrived: a neighbour that misses an update asks again.

`Sender.nextUpdate` is the update for the epochs that are not yet told.  Only routes to children are
offered, and only to others than the child itself and than parents; of every other prefix that has
changed the neighbour is told that it is withdrawn.
-/

namespace IlpConnector

structure Sender extends Registration where
  mode : RouteMode := .idle
  /-- The epoch from which the neighbour is told next. -/
  nextEpoch : UInt32 := 0
  /-- The table that the neighbour asked about last. -/
  knownTable : Option TableId := none
  /-- The broadcast that runs for the neighbour, if one does. -/
  broadcast : Option Nat := none

namespace Sender

/-- Starts a broadcast under a number, unless one is running. -/
def start (s : Sender) (number : Nat) : Sender :=
  if s.broadcast.isSome then s else { s with broadcast := some number }

def stop (s : Sender) : Sender :=
  { s with broadcast := none }

/-- What a request sets, the broadcast aside.  Who asks about another table is told from the start. -/
def note (s : Sender) (table : TableId) (c : RouteControl) : Sender :=
  { s with
    mode := c.mode
    knownTable := some c.tableId
    nextEpoch := if c.tableId = table then c.epoch else 0 }

/-- Does what a request asks for; a broadcast that starts gets the given number. -/
def obey (s : Sender) (table : TableId) (number : Nat) (c : RouteControl) : Sender :=
  match c.mode with
  | .sync => (s.note table c).start number
  | .idle => (s.note table c).stop

/-- The neighbour may be told about a route. -/
def mayOffer (s : Sender) (accounts : AccountStore) (r : Route) : Bool :=
  r.nextHop ≠ s.peer
    && !(accounts.get? s.peer).any (·.relationship = .parent)
    && !(accounts.get? r.nextHop).any (·.relationship.isPeerOrParent)

/-- The last change of each prefix, as the neighbour is told. -/
def outcomes (s : Sender) (accounts : AccountStore) (changes : List RouteChange) :
    Dict AddressPrefix (Option Route) :=
  changes.foldl (fun d c => d.insert c.target (c.route.filter (s.mayOffer accounts))) ∅

def offers (d : Dict AddressPrefix (Option Route)) : List Announcement :=
  d.values.filterMap fun r => r.map fun r => ⟨r.target, r.path, r.auth, []⟩

def withdrawals (d : Dict AddressPrefix (Option Route)) : List AddressPrefix :=
  (d.filter fun _ r => r.isNone).keys

/-- For how long the neighbour may hold the routes, in milliseconds. -/
def holdDown (settings : RoutingSettings) : UInt32 :=
  if settings.routeExpiry.toNat < UInt32.size then .ofNat settings.routeExpiry.toNat
  else .ofNat (UInt32.size - 1)

/-- The next update, after which its epochs count as told.  To build it is one step: no request of
the neighbour can come in between and set another epoch, which would have to be kept. -/
def nextUpdate (s : Sender) (table : ForwardingTable) (accounts : AccountStore)
    (settings : RoutingSettings) (operator : Option Address) : RouteUpdate × Sender :=
  let changes := table.changesFrom s.nextEpoch settings.maxEpochs
  let upto := s.nextEpoch + .ofNat changes.length
  let d := s.outcomes accounts changes
  ({ tableId := table.id
     currentEpoch := table.epoch
     fromEpoch := s.nextEpoch
     toEpoch := upto
     holdDown := holdDown settings
     speaker := Address.orUnset operator
     announced := offers d
     withdrawn := withdrawals d },
    { s with nextEpoch := upto })

/-- When an update that is sent now expires. -/
def updateExpiry (settings : RoutingSettings) (now : Instant) : Instant :=
  now.addMillis settings.routeExpiry.toNat

end Sender

end IlpConnector
