import IlpConnector.Ccp.Error
import IlpConnector.Ccp.Registration
import IlpConnector.Routing.ForwardingTable

/-!
# Learning routes from a neighbour

A receiver keeps what one neighbour offers, and how far it has been told about the neighbour's table.
An update is applied if it follows on what is known: one that starts later is refused, and one that
ends no later changes nothing.  An update about another table drops all that was known.

`Receiver.apply` also keeps the forwarding table up with the neighbour: it sets the neighbour's
route for a prefix where there is none, or one that is longer, or an older one of the neighbour.
-/

namespace IlpConnector

structure Receiver extends Registration where
  tableId : TableId
  /-- The epoch that is expected next. -/
  epoch : UInt32 := 0
  /-- What the neighbour offers, used or not. -/
  learned : Dict AddressPrefix Route := ∅

/-- A receiver, the forwarding table, and the prefixes whose routes have changed there. -/
structure Learning where
  receiver : Receiver
  table : ForwardingTable
  changed : List AddressPrefix := []

namespace Learning

/-- The table's route for a prefix leads to the neighbour. -/
def leadsToPeer (l : Learning) (target : AddressPrefix) : Bool :=
  (l.table.get? target).any (·.nextHop = l.receiver.peer)

/-- Forgets a prefix, and takes its route from the table if it leads to the neighbour. -/
def withdraw (l : Learning) (target : AddressPrefix) : Learning :=
  if (l.receiver.learned.get? target).isSome then
    let receiver := { l.receiver with learned := l.receiver.learned.erase target }
    if l.leadsToPeer target then
      { receiver, table := (l.table.withdraw target).2, changed := l.changed ++ [target] }
    else { l with receiver }
  else l

/-- A route of the neighbour is better than the one in the table. -/
def prefers (l : Learning) (r : Route) : Bool :=
  match l.table.get? r.target with
  | none => true
  | some existing => existing.nextHop = l.receiver.peer || r.path.length < existing.path.length

/-- The route that an offer gives a node with this address. -/
def routeOf (peer : AccountId) (own : Option Address) (a : Announcement) : Route :=
  ⟨a.target, peer, Route.rehash a.auth, own.toList ++ a.path⟩

/-- The offer has come through a node with this address. -/
def loops (own : Option Address) (a : Announcement) : Bool :=
  own.any a.path.contains

/-- Learns an offer, unless it has come through this node already. -/
def learn (own : Option Address) (l : Learning) (a : Announcement) : Learning :=
  if loops own a then l
  else
    let r := routeOf l.receiver.peer own a
    let receiver := { l.receiver with learned := l.receiver.learned.insert r.target r }
    if l.prefers r then
      match l.table.set r with
      | (true, table) => { receiver, table, changed := l.changed ++ [r.target] }
      | (false, _) => { l with receiver }
    else { l with receiver }

/-- Turns to another table of the neighbour: nothing of what it offered before counts any more. -/
def adopt (l : Learning) (id : TableId) : Learning :=
  { l with
    receiver := { l.receiver with tableId := id, epoch := 0, learned := ∅ }
    table := (l.table.withdrawVia l.receiver.peer).2 }

/-- The receiver is told up to an epoch. -/
def reach (l : Learning) (epoch : UInt32) : Learning :=
  { l with receiver := { l.receiver with epoch } }

end Learning

namespace Receiver

/-- Applies an update to what is known, and to the forwarding table of a node with this address.  The
prefixes whose routes have changed there are told, unless it is for the change of the neighbour's
table. -/
def apply (r : Receiver) (table : ForwardingTable) (own : Option Address) (u : RouteUpdate) :
    Learning × Except EpochGap (List AddressPrefix) :=
  let l : Learning := { receiver := r, table }
  let l := if r.tableId = u.tableId then l else l.adopt u.tableId
  if l.receiver.epoch < u.fromEpoch then
    (l, .error ⟨l.receiver.tableId, l.receiver.epoch, u.fromEpoch⟩)
  else if u.toEpoch ≤ l.receiver.epoch then (l, .ok [])
  else if u.isHeartbeat then (l.reach u.toEpoch, .ok [])
  else
    let l := u.withdrawn.foldl Learning.withdraw l
    let l := u.announced.foldl (Learning.learn own) l
    (l.reach u.toEpoch, .ok l.changed)

/-- The request to be told from the epoch that is expected next on. -/
def request (r : Receiver) : RouteControl :=
  ⟨.sync, r.tableId, r.epoch, []⟩

/-- When a request that is sent now expires. -/
def requestExpiry (now : Instant) : Instant := now.addSeconds 60

end Receiver

end IlpConnector
