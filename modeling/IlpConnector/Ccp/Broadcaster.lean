import IlpConnector.Ccp.Receiver
import IlpConnector.Ccp.Sender

/-!
# The exchange of routes with all neighbours

The broadcaster keeps the forwarding table, and a sender and a receiver for every account with which
routes are exchanged.  After everything that touches what the receivers have learned,
`Broadcaster.select` chooses the best route for each prefix concerned: the shortest one, of several
shortest ones the one in use, and else the one of the first account.  Routes to accounts without a
receiver are the node's own and stay as they are.

Broadcasts run beside all this; a broadcast that is to run has a number in its sender
(`Broadcaster.isRunning`), and ends when the number is gone.
-/

namespace IlpConnector

structure Broadcaster where
  settings : RoutingSettings
  table : ForwardingTable
  senders : Dict AccountId Sender := ∅
  receivers : Dict AccountId Receiver := ∅
  /-- Senders in whose place their accounts have others, or none, the latest one first. -/
  formerSenders : List Sender := []
  formerReceivers : List Receiver := []
  /-- The number of the broadcast that starts next. -/
  nextBroadcast : Nat := 0
  /-- The number of the next registration. -/
  nextSerial : Nat := 0

namespace Broadcaster

/-- The former senders when an account gets another one, or none. -/
def retireSender (b : Broadcaster) (account : AccountId) : List Sender :=
  ((b.senders.get? account).map Sender.stop).toList ++ b.formerSenders

def retireReceiver (b : Broadcaster) (account : AccountId) : List Receiver :=
  (b.receivers.get? account).toList ++ b.formerReceivers

/-- Gives an account the sender and the receiver that its settings ask for, in place of those it
has, and tells whether there are any.  A receiver starts with an id of its own for the neighbour's
table. -/
def register (b : Broadcaster) (account : AccountSettings) (link : LinkRef) (id : TableId) :
    Bool × Broadcaster :=
  if !b.settings.broadcastEnabled then (false, b)
  else
    let serial := b.nextSerial
    let b := { b with nextSerial := serial + 1 }
    let b := if account.sendsRoutes then
        { b with
          senders := b.senders.insert account.id { peer := account.id, link, serial }
          formerSenders := b.retireSender account.id }
      else b
    let b := if account.receivesRoutes then
        { b with
          receivers := b.receivers.insert account.id
            { peer := account.id, link, serial, tableId := id }
          formerReceivers := b.retireReceiver account.id }
      else b
    (account.sendsRoutes || account.receivesRoutes, b)

/-- The sender of a registration, be it a former one. -/
def sender? (b : Broadcaster) (account : AccountId) (serial : Nat) : Option Sender :=
  Registration.find? Sender.toRegistration (b.senders.get? account) b.formerSenders account serial

/-- The receiver of a registration, be it a former one. -/
def receiver? (b : Broadcaster) (account : AccountId) (serial : Nat) : Option Receiver :=
  Registration.find? Receiver.toRegistration (b.receivers.get? account) b.formerReceivers account
    serial

/-- The routes for a prefix that receivers have learned, in the order of their accounts. -/
def learnedRoutes (b : Broadcaster) (target : AddressPrefix) : List Route :=
  b.receivers.values.filterMap fun r => r.learned.get? target

/-- One route goes before another: it is shorter, or as long and in use, or else its account comes
first. -/
def precedes (current : Option AccountId) (x y : Route) : Bool :=
  if x.path.length ≠ y.path.length then x.path.length < y.path.length
  else if (some x.nextHop = current) ≠ (some y.nextHop = current) then some x.nextHop = current
  else x.nextHop.text < y.nextHop.text

/-- The route that goes before all others. -/
def bestRoute (current : Option AccountId) (routes : List Route) : Option Route :=
  routes.foldl
    (fun best r =>
      match best with
      | none => some r
      | some b => if precedes current r b then some r else some b)
    none

/-- Whose the route of a prefix is: the account to which it leads. -/
def owner? (b : Broadcaster) (target : AddressPrefix) : Option AccountId :=
  (b.table.get? target).map Route.nextHop

/-- The route of a prefix is the node's own. -/
def isOwn (b : Broadcaster) (target : AddressPrefix) : Bool :=
  (b.owner? target).any fun a => !b.receivers.contains a

/-- Chooses the route for one prefix anew, and tells whether that changes it. -/
def selectOne (b : Broadcaster) (target : AddressPrefix) : Bool × Broadcaster :=
  if b.isOwn target then (false, b)
  else
    match bestRoute (b.owner? target) (b.learnedRoutes target) with
    | some r =>
      let (changed, table) := b.table.set r
      (changed, { b with table })
    | none =>
      let (removed, table) := b.table.withdraw target
      (removed.isSome, { b with table })

/-- Chooses the routes for prefixes anew, and tells the ones that have changed. -/
def select (b : Broadcaster) : List AddressPrefix → List AddressPrefix × Broadcaster
  | [] => ([], b)
  | target :: rest =>
    let (changed, b) := b.selectOne target
    let (others, b) := b.select rest
    (if changed then target :: others else others, b)

/-- Prefixes in order, each one once. -/
def ordered (targets : List AddressPrefix) : List AddressPrefix :=
  (Dict.ofList (targets.map fun t => (t, ()))).keys

/-- Stops the exchange of routes with an account, and lets other neighbours' routes take the place of
its own. -/
def remove (b : Broadcaster) (account : AccountId) : Broadcaster :=
  let b := { b with
    senders := b.senders.erase account
    formerSenders := b.retireSender account }
  if b.receivers.contains account then
    let (withdrawn, table) := b.table.withdrawVia account
    let b := { b with
      receivers := b.receivers.erase account
      formerReceivers := b.retireReceiver account
      table }
    (b.select withdrawn).2
  else b

/-- Applies an update as the receiver of an account does, without choosing routes anew. -/
def learn (b : Broadcaster) (r : Receiver) (own : Option Address) (u : RouteUpdate) :
    Except EpochGap (List AddressPrefix) × Broadcaster :=
  let (l, result) := r.apply b.table own u
  (result, { b with table := l.table, receivers := b.receivers.insert r.peer l.receiver })

/-- Applies an update of a receiver's neighbour and chooses the routes anew for all that it touches,
which is also what another table drops.  The prefixes whose routes have changed are told in order. -/
def update (b : Broadcaster) (r : Receiver) (own : Option Address) (u : RouteUpdate) :
    Except EpochGap (List AddressPrefix) × Broadcaster :=
  let dropped := if r.tableId = u.tableId then [] else r.learned.keys
  match b.learn r own u with
  | (.error gap, b) => (.error gap, (b.select (ordered dropped)).2)
  | (.ok changed, b) =>
    let (selected, b) := b.select (ordered (dropped ++ changed))
    (.ok (ordered (changed ++ selected)), b)

/-- Puts another sender in place of the one it comes from. -/
def withSender (b : Broadcaster) (s : Sender) : Broadcaster :=
  { b with senders := b.senders.insert s.peer s }

/-- Starts a broadcast to a sender's neighbour, if none is running.  The number of a broadcast that
starts is told. -/
def start (b : Broadcaster) (s : Sender) : Option Nat × Broadcaster :=
  (if s.broadcast.isSome then none else some b.nextBroadcast,
    { b.withSender (s.start b.nextBroadcast) with nextBroadcast := b.nextBroadcast + 1 })

def stop (b : Broadcaster) (s : Sender) : Broadcaster :=
  b.withSender s.stop

/-- Does what a sender's neighbour asks for, and tells the number of a broadcast that starts. -/
def obey (b : Broadcaster) (s : Sender) (c : RouteControl) : Option Nat × Broadcaster :=
  (if c.mode = .sync && s.broadcast.isNone then some b.nextBroadcast else none,
    { b.withSender (s.obey b.table.id b.nextBroadcast c) with nextBroadcast := b.nextBroadcast + 1 })

/-- The sender whose broadcast has this number. -/
def running? (b : Broadcaster) (account : AccountId) (number : Nat) : Option Sender :=
  (b.senders.get? account).filter (·.broadcast = some number)

/-- A broadcast to an account's neighbour under this number is to go on. -/
def isRunning (b : Broadcaster) (account : AccountId) (number : Nat) : Bool :=
  (b.running? account number).isSome

/-- Puts another sender in place of the one it comes from, be it a former one. -/
def withAnySender (b : Broadcaster) (s : Sender) : Broadcaster :=
  if (b.senders.get? s.peer).any (·.toRegistration = s.toRegistration) then b.withSender s
  else { b with formerSenders := Registration.replace Sender.toRegistration b.formerSenders s }

/-- The next update of a sender, which counts as told from then on. -/
def nextUpdate (b : Broadcaster) (s : Sender) (accounts : AccountStore)
    (operator : Option Address) : RouteUpdate × Broadcaster :=
  let (u, s) := s.nextUpdate b.table accounts b.settings operator
  (u, b.withAnySender s)

/-- Ends all broadcasts. -/
def shutdown (b : Broadcaster) : Broadcaster :=
  { b with senders := b.senders.mapValues fun _ s => s.stop }

end Broadcaster

end IlpConnector
