import IlpConnector.Simulation.Network
import IlpConnector.Simulation.Scheduler

/-!
# What goes on in a network

The procedures that take time: packets on their way, links that connect, nodes that come up, and
broadcasts of routes.  Each follows the steps that nodes, links and senders give, and waits between
them for neighbours, for other tasks or for the clock.
-/

namespace IlpConnector

inductive Procedure where
  /-- Connects or disconnects a link. -/
  | turn (call : LinkCall) (link : LinkRef)
  /-- Sends a packet over a link. -/
  | send (link : LinkRef) (p : Prepare)
  /-- Takes a packet that a link brings. -/
  | arrive (link : LinkRef) (p : Prepare)
  /-- Sends a packet from an account through a node's switch. -/
  | switch (node : String) (account : AccountId) (p : Prepare)
  /-- Forwards a packet behind guards. -/
  | guarded (node : String) (source : AccountSettings) (p : Prepare) (guards : List Guard)
  /-- Puts a node into operation. -/
  | bringUp (node : String)
  | takeDown (node : String)
  /-- Tells a neighbour about routes, for the sender with this number. -/
  | announce (node : String) (account : AccountId) (serial : Nat)
  /-- Asks a neighbour for routes, for the receiver with this number. -/
  | request (node : String) (account : AccountId) (serial : Nat)
  /-- Tells an account's neighbour about routes again and again. -/
  | broadcast (node : String) (account : AccountId) (number : Nat)
  /-- Lets time pass. -/
  | pause (millis : Nat)

inductive Outcome where
  | finished
  | replied (r : Reply)
  | linkFailed (e : LinkError)
  | routingFailed (e : RoutingError)
  | nodeFailed (e : NodeError)
  /-- The account has never had such a sender or receiver. -/
  | notRouting

/-- A task in a network. -/
abbrev Task := Flow Network Procedure Outcome

namespace Procedure

open IlpConnector.Flow

/-- Waits for a scripted neighbour's answer to a packet. -/
def askPeer (name : String) (p : Prepare) : Task Outcome := do
  let action ← take fun n =>
    match n.peers.get? name with
    | some peer =>
      let (action, peer) := peer.takePacket p
      (action, { n with peers := n.peers.insert name peer })
    | none => (ScriptedAction.usual, n)
  if action.delay ≠ 0 then Flow.pause action.delay
  let answered : Task Unit := change fun n =>
    { n with peers := n.peers.modify name fun peer => { peer with answered := peer.answered + 1 } }
  match action.answer with
  | .hang => stall
  | .crash => crash ScriptedAnswer.crashMessage
  | .fail e => do
    answered
    return .linkFailed e
  | .reply r => do
    answered
    return .replied r
  | .echo => do
    answered
    return .replied (.fulfilled ⟨Octets.replicate 32 0, p.data⟩)

/-- What a clock says that cannot hold the end of a token. -/
def clockOverflow : String := "overflow when adding duration to `SystemTime`"

/-- Waits for a transport to open or to close. -/
def moveTransport (t : Transport Wire) (step : TransportStep) : Task (Except LinkError Unit) :=
  match t with
  | .loopback _ | .ping | .other (.bridge ..) => return .ok ()
  | .http h => do
    let now ← read Network.now
    match step, h.token? now with
    | .open, none => crash clockOverflow
    | _, _ => return .ok ()
  | .other (.scripted name) => do
    let (refusal, delay) ← take fun n =>
      match n.peers.get? name with
      | some peer =>
        let (refusal, peer) := match step with
          | .open => peer.takeConnect
          | .close => peer.takeDisconnect
        ((refusal, peer.script.delay), { n with peers := n.peers.insert name peer })
      | none => ((none, 0), n)
    if delay ≠ 0 then Flow.pause delay
    match refusal with
    | some e => return .error e
    | none => return .ok ()

/-- Goes on with a call on a link; there are two waits in a call at most. -/
def goOn (r : LinkRef) : (waits : Nat) → LinkProgress → Task Outcome
  | _, .returned (.ok ()) => return .finished
  | _, .returned (.error e) => return .linkFailed e
  | 0, .waiting _ => return .finished
  | waits + 1, .waiting wait => do
    match ← read (·.link? r) with
    | none => return .finished
    | some l =>
      let answer ← moveTransport l.transport wait.step
      let progress ← take fun n =>
        match n.link? r with
        | none => (.returned (.ok ()), n)
        | some l =>
          let (l, events, progress) := l.resume wait answer
          (progress, (n.setLink r l).tell l events)
      goOn r waits progress

def turnLink (c : LinkCall) (r : LinkRef) : Task Outcome := do
  let progress ← take fun n =>
    match n.link? r with
    | none => (.returned (.ok ()), n)
    | some l =>
      let (l, progress) := l.begin c
      (progress, n.setLink r l)
  goOn r 2 progress

/-- Makes a request to a host and waits for what comes of it. -/
def askHost (r : HttpRequest) : Task Outcome := do
  let end? ← take fun n => (n.exchange n.requests r, { n with requests := n.requests ++ [r] })
  match end? with
  | none => stall
  | some (delay, result) =>
    if delay ≠ 0 then Flow.pause delay
    match HttpResponse.answer result with
    | .error e => return .linkFailed e
    | .ok r => return .replied r

/-- How transports carry a packet of a node that has this address, at this time. -/
abbrev Carrier := Option Address → Instant → Prepare → Transport Wire → Task Outcome

def carryPacket : Carrier
  | operator, _, p, .loopback refusal => return .replied (Loopback.answer refusal operator p)
  | operator, _, p, .ping => return .replied (Ping.answer operator p)
  | _, now, p, .http h =>
    match h.token? now with
    | none => crash clockOverflow
    | some token => askHost (h.request token p)
  | _, _, p, .other (.scripted name) => askPeer name p
  | _, _, p, .other (.bridge node account) => do
    match ← read (·.linkOf node account) with
    | none => return .linkFailed (.transport (node ++ " is not up"))
    | some far => run (.arrive far p)

/-- Sends a packet over a link whose transport carries it in this way. -/
def sendBy (carry : Carrier) (r : LinkRef) (p : Prepare) : Task Outcome := do
  let (l, operator, now) ← read fun n => (n.link? r, n.operatorOf (n.ownerOf r), n.now)
  match l.map Link.outgoing with
  | none => return .linkFailed (.notConnected none)
  | some (.error e) => return .linkFailed e
  | some (.ok transport) => carry operator now p transport

def sendOver (r : LinkRef) (p : Prepare) : Task Outcome := sendBy carryPacket r p

/-- Sets going what a route message asks for. -/
def runErrand (node : String) (account : AccountId) : RouteErrand → Task Unit
  | .broadcast number => do
    let _ ← start (.broadcast node account number)
  | .request serial => do
    let _ ← start (.request node account serial)

/-- The refusal by a handler that refuses everything. -/
def refusingReply (name : String) (id : LinkId) (p : Prepare) : Reply :=
  .rejected ⟨.unreachable, none,
    Utf8.encode (name ++ " got " ++ p.destination.text ++ " on " ++ id.text), p.data⟩

def arriveAt (r : LinkRef) (p : Prepare) : Task Outcome := do
  let (l, node) ← read fun n => (n.link? r, n.ownerOf r)
  match l.map Link.incoming with
  | none => return .linkFailed .idNotSet
  | some (.error e) => return .linkFailed e
  | some (.ok (id, .refusing name)) => return .replied (refusingReply name id p)
  | some (.ok (_, .account account)) =>
    let reception ← take fun n =>
      match n.nodes.get? node with
      | some m =>
        let (reception, m) := m.receive n.now account p
        (reception, n.setNode node m)
      | none => (.switched, n)
    match reception with
    | .switched => run (.switch node account p)
    | .answered reply errand => do
      if let some errand := errand then runErrand node account errand
      return .replied reply

def switchPacket (node : String) (account : AccountId) (p : Prepare) : Task Outcome := do
  let (operator, entered) ← take fun n =>
    match n.nodes.get? node with
    | some m =>
      let (entered, m) := m.enter n.now n.reading account p
      let n := n.setNode node m
      match entered with
      | some (_, e) => ((m.operator, entered), { n with probed := n.probed ++ e.probes })
      | none => ((m.operator, entered), n)
    | none => ((none, none), n)
  match entered with
  | none => return .replied (.rejected (PacketSwitch.unknownSource operator account))
  | some (source, e) =>
    match e.refusal with
    | some r => return .replied (.rejected r)
    | none => run (.guarded node source p e.guards)

/-- Sends a packet on to where a router sends it, as the network has the router and the address
then. -/
def forwardBy (router : Network → Router LinkRef) (operator : Network → Option Address)
    (source : AccountSettings) (p : Prepare) : Task Outcome := do
  match ← read fun n => (router n).choose n.isConnected (operator n) source p with
  | .error r => return .replied (.rejected r)
  | .ok (next, link) =>
    match ← run (.send link p) with
    | .linkFailed _ => do
      let operator ← read operator
      return .replied (.rejected (Router.unreachable operator next))
    | other => return other

def routePacket (node : String) (source : AccountSettings) (p : Prepare) : Task Outcome :=
  forwardBy (·.routerOf node) (·.operatorOf node) source p

def forwardPacket (node : String) (source : AccountSettings) (p : Prepare) : Task Outcome := do
  match ← read Network.outlet with
  | some peer => askPeer peer p
  | none => routePacket node source p

/-- Milliseconds that are at least so many nanoseconds. -/
def toMillis (nanos : Nat) : Nat := (nanos + 999999) / 1000000

def passGuards (node : String) (source : AccountSettings) (p : Prepare) :
    List Guard → Task Outcome
  | [] => forwardPacket node source p
  | .condition hash :: rest => do
    match ← run (.guarded node source p rest) with
    | .replied r => do
      let operator ← read (·.operatorOf node)
      return .replied (Guard.review operator (.condition hash) r)
    | other => return other
  | .deadline nanos :: rest => do
    let t ← start (.guarded node source p rest)
    match ← wait t (some (toMillis nanos)) with
    | some (.finished o) => return o
    | some (.crashed m) => crash m
    | none => do
      let operator ← read (·.operatorOf node)
      return .replied (Guard.timedOut operator)

/-- Tells a neighbour about routes. -/
def announceTo (node : String) (account : AccountId) (serial : Nat) : Task Outcome := do
  let packet ← take fun n =>
    match n.nodes.get? node with
    | none => (none, n)
    | some m =>
      match m.broadcaster.sender? account serial with
      | none => (none, n)
      | some s =>
        let (u, b) := m.broadcaster.nextUpdate s m.accounts m.operator
        (some (u.toPrepare (Sender.updateExpiry b.settings n.now), s.link),
          n.setNode node { m with broadcaster := b })
  match packet with
  | none => return .notRouting
  | some (p, link) =>
    match ← run (.send link p) with
    | .linkFailed e => return .routingFailed (.link e)
    | other => return other

/-- Asks a neighbour for routes. -/
def requestFrom (node : String) (account : AccountId) (serial : Nat) : Task Outcome := do
  let packet ← read fun n => do
    let m ← n.nodes.get? node
    let r ← m.broadcaster.receiver? account serial
    return (r.request.toPrepare (Receiver.requestExpiry n.now), r.link)
  match packet with
  | none => return .notRouting
  | some (p, link) =>
    match ← run (.send link p) with
    | .linkFailed e => return .routingFailed (.link e)
    | other => return other

/-- Tells a neighbour about routes, as a task of its own that nothing interrupts, and goes on so after
a while, until the broadcast is stopped. -/
def broadcastTo (node : String) (account : AccountId) (number : Nat) : Task Outcome := do
  let running ← read fun n => do
    let m ← n.nodes.get? node
    let s ← m.broadcaster.running? account number
    return (s.serial, m.broadcaster.settings.broadcastInterval.toNat)
  match running with
  | none => return .finished
  | some (serial, interval) => do
    let t ← start (.announce node account serial)
    let _ ← wait t none
    Flow.pause interval
    run (.broadcast node account number)

/-- Puts accounts into operation, one after the other.  A link that fails to connect stays. -/
def enlistAll (node : String) : List AccountSettings → Task (Option NodeError)
  | [] => return none
  | a :: rest => do
    let made : Except LinkError LinkRef ← take fun n =>
      match n.makeLink a with
      | .error e => (.error e, n)
      | .ok l => ((.ok (n.addLink node l).1), (n.addLink node l).2)
    match made with
    | .error e => return some (.link a.id e)
    | .ok r => do
      let _ ← run (.turn .connect r)
      let failure ← take fun n =>
        match n.nodes.get? node with
        | none => (none, n)
        | some m =>
          let (id, n) := n.newId
          let (m, failure) := m.enlist a r id
          (failure, n.setNode node m)
      match failure with
      | some e => return some e
      | none => enlistAll node rest

def bringUpNode (node : String) : Task Outcome := do
  let begun : Except NodeError (List AccountSettings) ← take fun n =>
    match (n.nodes.get? node).map Node.begin with
    | none => (.ok [], n)
    | some (.error e) => (.error e, n)
    | some (.ok m) => (.ok m.configured, n.setNode node m)
  match begun with
  | .error e => return .nodeFailed e
  | .ok accounts =>
    match ← enlistAll node accounts with
    | some e => return .nodeFailed e
    | none => do
      let receivers ← read fun n =>
        ((n.nodes.get? node).map (·.broadcaster.receivers.values)).getD []
      receivers.forM fun r => do
        let _ ← start (.request node r.peer r.serial)
      return .finished

/-- Disconnects a node's links, one after the other. -/
def disconnectAll (node : String) : List AccountId → Task Unit
  | [] => return ()
  | a :: rest => do
    if let some r ← read (·.linkOf node a) then
      let _ ← run (.turn .disconnect r)
    disconnectAll node rest

def takeDownNode (node : String) : Task Outcome := do
  let accounts ← take fun n =>
    match n.nodes.get? node with
    | none => ([], n)
    | some m => (m.links.keys, n.setNode node { m with broadcaster := m.broadcaster.shutdown })
  disconnectAll node accounts
  return .finished

/-- The task that a procedure is. -/
def task : Procedure → Task Outcome
  | turn c link => turnLink c link
  | send link p => sendOver link p
  | arrive link p => arriveAt link p
  | switch node account p => switchPacket node account p
  | guarded node source p guards => passGuards node source p guards
  | bringUp node => bringUpNode node
  | takeDown node => takeDownNode node
  | announce node account serial => announceTo node account serial
  | request node account serial => requestFrom node account serial
  | broadcast node account number => broadcastTo node account number
  | pause millis => do
    Flow.pause millis
    return .finished

end Procedure

end IlpConnector
