import IlpConnector.Scenario.Commands

/-!
# Steps on the exchange of routes

A node that exchanges routes with scripted neighbours, each on a link of its own that comes up when
the account is registered.  The steps act on the node's senders and receivers directly.
-/

namespace IlpConnector.Reading

/-- The node and its neighbours: what they do, and whose links do not come up. -/
structure Exchange where
  node : String
  scripts : Document
  down : List String

namespace Exchange

/-- Exchanges routes with an account from now on. -/
def enlist (x : Exchange) (account : AccountSettings) (link : LinkRef) (id : TableId)
    (n : Network) : Answer × Network × List Procedure :=
  (Step.routes x.node fun b =>
    (.flag (b.register account link id).1, (b.register account link id).2)).after [] n

/-- The link to an account's scripted neighbour. -/
def link (account : AccountId) : NetworkLink where
  settings := ⟨⟨"SCRIPTED"⟩, ∅⟩
  transport := .other (.scripted account.text)
  id := some (.ofAccount account)

def register (x : Exchange) (n : Network) (m : Node) (d : Document) : Reading Step := do
  let account ← accountAt "account" d
  match m.accounts.get? account with
  | none => return .tell (.text "unknown account")
  | some settings =>
    let script ← scriptAt account.text x.scripts
    let id := n.newId.1
    match m.links.get? account with
    | some r =>
      return { before := fun n => n.newId.2, after := fun _ n => x.enlist settings r id n }
    | none =>
      let r : LinkRef := ⟨n.links.length⟩
      return {
        before := fun n =>
          let n := (n.newId.2.addLink x.node (link account)).2
          let n := { n with peers := n.peers.insert account.text { script } }
          n.modifyNode x.node fun m => { m with links := m.links.insert account r }
        runs := if x.down.contains account.text then [] else [.turn .connect r]
        after := fun _ n => x.enlist settings r id n }

/-- A change that may start a broadcast to an account. -/
def starting (x : Exchange) (account : AccountId) (f : Broadcaster → Option Nat × Broadcaster) :
    Step where
  after _ n :=
    match n.nodes.get? x.node with
    | none => (.value .null, n, [])
    | some m =>
      let (started, b) := f m.broadcaster
      (.done, n.setNode x.node { m with broadcaster := b },
        (started.map fun k => Procedure.broadcast x.node account k).toList)

/-- What an account's sender does. -/
def withSender (m : Node) (account : AccountId) (f : Sender → Step) : Step :=
  match m.broadcaster.senders.get? account with
  | some s => f s
  | none => .tell (.complaint .noSender)

def withReceiver (m : Node) (account : AccountId) (f : Receiver → Step) : Step :=
  match m.broadcaster.receivers.get? account with
  | some r => f r
  | none => .tell (.complaint .noReceiver)

def learned : Except EpochGap (List AddressPrefix) → Answer
  | .ok targets => .value (prefixTexts targets)
  | .error g => .complaint (.routing (.gap g))

/-- A step that tells about a change no more than that it is done. -/
def quietly (f : Broadcaster → Broadcaster) (x : Exchange) : Step :=
  .routes x.node fun b => (.done, f b)

/-- A step on the exchange of routes, or else one on the accounts or the table of the node. -/
def step (x : Exchange) (n : Network) (d : Document) : Reading Step := do
  let some m := n.nodes.get? x.node | return .tell (.value .null)
  let c := contextOf n x.node
  let account := accountAt "account" d
  match verb d with
  | "register" => x.register n m d
  | "control" =>
    let account ← account
    let request ← control c d
    return withSender m account fun s => x.starting account fun b => b.obey s request
  | "start" =>
    let account ← account
    return withSender m account fun s => x.starting account fun b => b.start s
  | "stop" => return withSender m (← account) fun s => quietly (·.stop s) x
  | "send_update" =>
    let account ← account
    return withSender m account fun s => .run (.announce x.node account s.serial)
  | "update" =>
    let account ← account
    let u ← update c d
    return withReceiver m account fun r => .routes x.node fun b =>
      let (result, b) :=
        if d.boolAt "direct" then b.learn r m.operator u else b.update r m.operator u
      (learned result, b)
  | "request" =>
    let account ← account
    return withReceiver m account fun r => .run (.request x.node account r.serial)
  | "peek_request" =>
    return withReceiver m (← account) fun r => .tell (.value r.request.toDocument)
  | "reselect" =>
    let targets ← prefixesAt "prefixes" d
    return .routes x.node fun b =>
      (.value (prefixTexts (b.select targets).1), (b.select targets).2)
  | "remove" =>
    let account ← account
    return quietly (·.remove account) x
  | "shutdown" => return quietly Broadcaster.shutdown x
  | "receivers" => return .tell (.value (.list (m.broadcaster.receivers.keys.map accountText)))
  | "advance" => return advanceStep d
  | "connect" => turnStep .connect x.node (.complaint .noLink) n d
  | "disconnect" => turnStep .disconnect x.node (.complaint .noLink) n d
  | "set_operator" => operatorStep x.node "address" d
  | _ =>
    match storeStep? x.node d with
    | some read =>
      let step ← read
      return { step with after := fun es n => (.done, (step.after es n).2) }
    | none => tableStep x.node n d

end Exchange

end IlpConnector.Reading
