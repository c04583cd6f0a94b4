import IlpConnector.Scenario.Scripts
import IlpConnector.Scenario.Session

/-!
# Steps on tables, accounts and links

The commands on a forwarding table, on a table of set routes and on the accounts of a node, and the
steps that use them on a node of the network.
-/

namespace IlpConnector.Reading

/-- What a step is about. -/
def verb (d : Document) : String := d.textAt "do"

def prefixTexts (targets : List AddressPrefix) : Document :=
  .texts (targets.map AddressPrefix.text)

def accountText (a : AccountId) : Document := .text a.text

/-- A command on a forwarding table, which gets the fresh id if it starts over. -/
def tableCommand (fresh : TableId) (d : Document) :
    Reading (ForwardingTable → Answer × ForwardingTable) :=
  match verb d with
  | "set" => do
    let target ← prefixAt "prefix" d
    let nextHop ← accountAt "next_hop" d
    let path ← addressesAt "path" d
    return fun t =>
      let (changed, t) := t.set ⟨target, nextHop, d.wideAt "auth", path⟩
      (.flag changed, t)
  | "local" => do
    let target ← prefixAt "prefix" d
    let nextHop ← accountAt "next_hop" d
    return fun t =>
      let (changed, t) := t.set (.own target nextHop (d.octetsAt "secret"))
      (.flag changed, t)
  | "withdraw" => do
    let target ← prefixAt "prefix" d
    return fun t => (.ofOption Route.toDocument (t.withdraw target).1, (t.withdraw target).2)
  | "withdraw_via" => do
    let account ← accountAt "account" d
    return fun t => (.value (prefixTexts (t.withdrawVia account).1), (t.withdrawVia account).2)
  | "reset" => .ok fun _ => (.done, .fresh fresh)
  | "get" => do
    let target ← prefixAt "prefix" d
    return fun t => (.ofOption Route.toDocument (t.get? target), t)
  | "best" => do
    let a ← addressAt "address" d
    return fun t => (.ofOption Route.toDocument (t.best? a), t)
  | "resolve" => do
    let a ← addressAt "address" d
    return fun t => (.ofOption accountText (t.resolve a), t)
  | "log" => .ok fun t =>
    let changes := t.changesFrom (.ofNat (d.natAt "from")) (.ofNat (d.natAt "max"))
    (.value (.list (changes.map RouteChange.toDocument)), t)
  | _ => .ok fun t => (.value (.list (t.routes.values.map Route.toDocument)), t)

/-- A table as its routes were added, each as prefix and account. -/
def staticRouteDocument (r : StaticRoute) : Document := .texts [r.target.text, r.account.text]

def staticRoute (d : Document) : Reading StaticRoute := do
  let target ← prefixAt "prefix" d
  let account ← accountAt "account" d
  return ⟨target, account⟩

/-- A command on a table of set routes. -/
def staticCommand (d : Document) : Reading (StaticTable → Answer × StaticTable) :=
  match verb d with
  | "add_route" => do
    let r ← staticRoute d
    return fun t => (.done, t.add r)
  | "remove_route" => do
    let target ← prefixAt "prefix" d
    return fun t => (.ofOption staticRouteDocument (t.remove target).1, (t.remove target).2)
  | _ => do
    let a ← addressAt "address" d
    return fun t => (.ofOption accountText (t.resolve a), t)

/-- An account's settings, with what follows from them about routes. -/
def accountDocument (a : AccountSettings) : Document :=
  .table (a.toEntries ++ [("should_send_routes", .bool a.sendsRoutes),
    ("should_receive_routes", .bool a.receivesRoutes)])

/-- A command on accounts; each tells the settings that the account had before. -/
def storeCommand (d : Document) : Option (Reading (AccountStore → Answer × AccountStore)) :=
  match verb d with
  | "put_account" => some do
    let a ← account (d.field "account")
    return fun s => (.ofOption accountDocument (s.get? a.id), s.put a)
  | "remove_account" => some do
    let id ← accountAt "account" d
    return fun s => (.ofOption accountDocument (s.get? id), s.erase id)
  | "find_account" => some do
    let id ← accountAt "account" d
    return fun s => (.ofOption accountDocument (s.get? id), s)
  | _ => none

/-- A command on the forwarding table of a node. -/
def tableStep (node : String) (n : Network) (d : Document) : Reading Step := do
  let command ← tableCommand n.newId.1 d
  let onNode := Step.node node fun m => ((command m.table).1, m.withTable (command m.table).2)
  return { onNode with before := fun n => n.newId.2 }

/-- A command on one of the tables of set routes of a node. -/
def staticStep (node : String) (place : Nat) (d : Document) : Reading Step := do
  let command ← staticCommand d
  return .node node fun m =>
    (((m.staticTables[place]?).map fun t => (command t).1).getD (.value .null),
      { m with sources := Node.modifyStatic (fun t => (command t).2) place m.sources })

/-- A command on the accounts of a node, if it is one. -/
def storeStep? (node : String) (d : Document) : Option (Reading Step) :=
  (storeCommand d).map fun read => do
    let command ← read
    return .node node fun m =>
      ((command m.accounts).1, { m with accounts := (command m.accounts).2 })

/-- Gives a node its address. -/
def operatorStep (node : String) (key : String) (d : Document) : Reading Step := do
  let a ← addressAt key d
  return .node node fun m => (.done, { m with operator := some a })

def advanceStep (d : Document) : Step := .run (.pause (d.natAt "ms"))

/-- Connects or disconnects the link of a node with an account, if it has one. -/
def turnStep (call : LinkCall) (node : String) (missing : Answer) (n : Network) (d : Document) :
    Reading Step := do
  let account ← accountAt "account" d
  match n.linkOf node account with
  | some r => return .run (.turn call r)
  | none => return .tell missing

/-- The ids of a node's tables by their names. -/
def contextOf (n : Network) (node : String) : Context where
  now := n.now
  named s :=
    match n.nodes.get? node with
    | none => .ok noTable
    | some m =>
      match s.splitOn ":" with
      | ["recv", account] => do
        match m.broadcaster.receivers.get? (← ofAccountId account) with
        | some r => return r.tableId
        | none => throw .noReceiver
      | _ => .ok m.table.id

end IlpConnector.Reading
