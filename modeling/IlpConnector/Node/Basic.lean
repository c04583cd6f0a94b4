import IlpConnector.Ccp.Inbox
import IlpConnector.Link.Basic
import IlpConnector.Routing.Router
import IlpConnector.Routing.StaticTable
import IlpConnector.Switch.Basic

/-!
# Nodes

A node has a link with each of its accounts, a switch for the packets that arrive on them, tables
that say where packets go, and an exchange of routes with the neighbours.

What a node does is given here in steps that take no time: what becomes of a packet that arrives
(`Node.receive`, `Node.enter`), where it goes (`Node.router`), and how an account is put into
operation (`Node.enlist`).  Links and waiting are not here: between two steps anything may happen.
-/

namespace IlpConnector

/-- What keeps a node from coming up. -/
inductive NodeError where
  | configuration
  | duplicateAccount (account : AccountId)
  | unknownRouteAccount (route : StaticRoute)
  | link (account : AccountId) (cause : LinkError)
  | childAddress (account : AccountId) (cause : AddressError)
  | alreadyStarted
deriving DecidableEq

def NodeError.message : NodeError → String
  | configuration => "Invalid configuration"
  | duplicateAccount a => "Account " ++ a.text ++ " is configured more than once"
  | unknownRouteAccount r =>
    "Static route for " ++ r.target.text ++ " points to unknown account " ++ r.account.text
  | link a e => "Unable to set up link for account " ++ a.text ++ ": " ++ e.message
  | childAddress a e =>
    "Unable to derive an address for child account " ++ a.text ++ ": " ++ e.message
  | alreadyStarted => "Node has already been started"

/-- Where a node looks for routes. -/
inductive RouteSource where
  | static (table : StaticTable)
  /-- The forwarding table. -/
  | learned

structure Node where
  operator : Option Address
  /-- The accounts to put into operation when the node starts, in that order. -/
  configured : List AccountSettings
  accounts : AccountStore
  /-- The first source with an answer counts. -/
  sources : List RouteSource
  broadcaster : Broadcaster
  /-- The links in operation. -/
  links : Dict AccountId LinkRef := ∅
  filters : List Filter := Filter.usual
  /-- What makes the limiters of the filters. -/
  governor : Governor := .bucket
  /-- The limiters of each filter. -/
  limiters : List Limiters := []
  /-- The key of the tags on the node's own routes. -/
  secret : Bytes := []
  started : Bool := false

namespace Node

/-- The first account that comes up a second time. -/
def firstDuplicate? (seen : List AccountId) : List AccountSettings → Option AccountId
  | [] => none
  | a :: rest => if seen.contains a.id then some a.id else firstDuplicate? (a.id :: seen) rest

/-- A node with these accounts that is not started yet.  Routes that are set win over learned
ones. -/
def ofSettings (s : ConnectorSettings) (accounts : List AccountSettings) (secret : Bytes)
    (id : TableId) : Except NodeError Node :=
  match firstDuplicate? [] accounts with
  | some a => .error (.duplicateAccount a)
  | none =>
    match s.staticRoutes.find? fun r => !(accounts.map AccountSettings.id).contains r.account with
    | some r => .error (.unknownRouteAccount r)
    | none =>
      .ok {
        operator := s.operatorAddress
        configured := accounts
        accounts := .ofAccounts accounts
        sources := [.static (.ofRoutes s.staticRoutes), .learned]
        broadcaster := { settings := s.routing, table := .fresh id }
        secret }

/-- Starts the node, which it does only once. -/
def begin (n : Node) : Except NodeError Node :=
  if n.started then .error .alreadyStarted else .ok { n with started := true }

def table (n : Node) : ForwardingTable := n.broadcaster.table

def withTable (n : Node) (t : ForwardingTable) : Node :=
  { n with broadcaster := { n.broadcaster with table := t } }

/-- The address under which a child is reached. -/
def childAddress (operator : Address) (child : AccountId) : Except AddressError Address :=
  operator.withSuffix child.text

/-- Sets the route to a child, if the node has an address. -/
def addChildRoute (n : Node) (child : AccountId) : Except NodeError Node :=
  match n.operator with
  | none => .ok n
  | some operator =>
    match childAddress operator child with
    | .error e => .error (.childAddress child e)
    | .ok a => .ok (n.withTable (n.table.set (.own a.toPrefix child n.secret)).2)

/-- Puts an account into operation over its link, which may or may not be connected: routes are
exchanged with it from now on, with the given id for its table, and a child gets its route. -/
def enlist (n : Node) (account : AccountSettings) (link : LinkRef) (id : TableId) :
    Node × Option NodeError :=
  let n := { n with
    links := n.links.insert account.id link
    broadcaster := (n.broadcaster.register account link id).2 }
  if account.relationship = .child then
    match n.addChildRoute account.id with
    | .ok n => (n, none)
    | .error e => (n, some e)
  else (n, none)

/-- Takes a packet that an account's link brings. -/
def receive (n : Node) (now : Instant) (account : AccountId) (p : Prepare) : Reception × Node :=
  let (r, b) := n.broadcaster.receive n.operator now account p
  (r, { n with broadcaster := b })

/-- Sends a packet from an account through the switch's filters, at a time and at a reading of the
limiters' clock. -/
def enter (n : Node) (now : Instant) (reading : Nat) (account : AccountId) (p : Prepare) :
    Option (AccountSettings × Entry) × Node :=
  match n.accounts.get? account with
  | none => (none, n)
  | some source =>
    let e := PacketSwitch.enter n.governor reading n.operator now source p n.filters n.limiters
    (some (source, e), { n with limiters := e.limiters })

/-- A packet that enters the switch has its limiters asked, and changes nothing else. -/
theorem exists_enter_snd (n : Node) (now : Instant) (reading : Nat) (account : AccountId)
    (p : Prepare) : ∃ limiters, (n.enter now reading account p).2 = { n with limiters } := by
  unfold enter
  split
  · exact ⟨n.limiters, rfl⟩
  · exact ⟨_, rfl⟩

/-- The tables as resolvers. -/
def resolvers (n : Node) : List Resolver :=
  n.sources.map fun
    | .static t => t.resolve
    | .learned => n.table.resolve

/-- What sends the node's packets on. -/
def router (n : Node) : Router LinkRef := ⟨n.resolvers, n.links⟩

/-- Changes the static table at a place among the static ones. -/
def modifyStatic (f : StaticTable → StaticTable) : (place : Nat) → List RouteSource →
    List RouteSource
  | _, [] => []
  | place, .learned :: rest => .learned :: modifyStatic f place rest
  | 0, .static t :: rest => .static (f t) :: rest
  | place + 1, .static t :: rest => .static t :: modifyStatic f place rest

/-- The static tables. -/
def staticTables (n : Node) : List StaticTable :=
  n.sources.filterMap fun
    | .static t => some t
    | .learned => none

end Node

end IlpConnector
