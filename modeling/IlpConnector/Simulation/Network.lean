import IlpConnector.Link.Factory
import IlpConnector.Node.Basic
import IlpConnector.Simulation.Script
import IlpConnector.Url.Read

/-!
# Networks

Nodes, the links between them, and scripted neighbours at the ends of other links, at one instant.
-/

namespace IlpConnector

/-- What is at the other end of a link. -/
inductive Wire where
  | scripted (peer : String)
  /-- The link of another node with an account. -/
  | bridge (node : String) (account : AccountId)

/-- Who takes the packets that a link brings. -/
inductive LinkHandler where
  /-- The link's node, for an account. -/
  | account (id : AccountId)
  /-- Refuses every packet under a name. -/
  | refusing (name : String)

abbrev NetworkLink := Link (Transport Wire) LinkHandler

structure Network where
  now : Instant
  /-- What the clock shows that limiters go by, in nanoseconds. -/
  reading : Nat := 0
  nodes : Dict String Node := ∅
  /-- The links, each with the name of the node it belongs to. -/
  links : List (String × NetworkLink) := []
  peers : Dict String ScriptedPeer := ∅
  /-- What takes the packets that a node's switch lets pass, in place of its router. -/
  outlet : Option String := none
  /-- How the URLs in settings are read. -/
  urls : UrlReader := Url.reader
  /-- What comes of requests over HTTP. -/
  exchange : HttpExchange := .unreachable
  /-- The requests so far, the first one first. -/
  requests : List HttpRequest := []
  /-- How many table ids have been given out. -/
  idsGiven : Nat := 0
  /-- What listeners have heard, the link's events in order. -/
  heard : List (String × LinkEvent) := []
  probed : List (String × Nat) := []

namespace Network

def link? (n : Network) (r : LinkRef) : Option NetworkLink :=
  n.links[r.index]?.map Prod.snd

/-- The node that a link belongs to. -/
def ownerOf (n : Network) (r : LinkRef) : String :=
  (n.links[r.index]?.map Prod.fst).getD ""

/-- Puts a link in the place of another one. -/
def setLink (n : Network) (r : LinkRef) (l : NetworkLink) : Network :=
  { n with links := n.links.modify r.index fun e => (e.1, l) }

/-- Adds a link of a node. -/
def addLink (n : Network) (owner : String) (l : NetworkLink) : LinkRef × Network :=
  (⟨n.links.length⟩, { n with links := n.links ++ [(owner, l)] })

def isConnected (n : Network) (r : LinkRef) : Bool :=
  (n.link? r).any Link.connected

def modifyNode (n : Network) (name : String) (f : Node → Node) : Network :=
  { n with nodes := n.nodes.modify name f }

def setNode (n : Network) (name : String) (node : Node) : Network :=
  { n with nodes := n.nodes.insert name node }

/-- The address of a node, if it is known. -/
def operatorOf (n : Network) (name : String) : Option Address :=
  (n.nodes.get? name).bind Node.operator

/-- What sends a node's packets on; without such a node, they go nowhere. -/
def routerOf (n : Network) (name : String) : Router LinkRef :=
  ((n.nodes.get? name).map Node.router).getD ⟨[], ∅⟩

/-- A table id that was not given out before, as far as hashes go. -/
def newId (n : Network) : TableId × Network :=
  let hash := Sha256.digest (Bytes.ofNatBE 8 n.idsGiven)
  (⟨.ofTake 16 hash.toList (by rw [hash.length_eq]; decide)⟩, { n with idsGiven := n.idsGiven + 1 })

/-- Lets all listeners of a link hear events. -/
def tell (n : Network) (l : NetworkLink) (events : List LinkEvent) : Network :=
  { n with heard := n.heard ++ events.flatMap fun e => l.listeners.map fun name => (name, e) }

/-- The link of a node with an account, if the node has it in operation. -/
def linkOf (n : Network) (node : String) (account : AccountId) : Option LinkRef :=
  (n.nodes.get? node).bind fun node => node.links.get? account

/-- The settings that name a script. -/
def scriptKey : String := "script"
def nodeKey : String := "node"
def accountKey : String := "account"

/-- Makes links to scripted neighbours. -/
def scriptedFactory (peers : List String) : LinkFactory Wire where
  type := ⟨"SCRIPTED"⟩
  transport custom :=
    match custom.get? scriptKey with
    | none => .error (.invalidSettings "missing script")
    | some name =>
      if peers.contains name then .ok (.other (.scripted name))
      else .error (.invalidSettings "no such script")

/-- Makes links to other nodes. -/
def bridgeFactory : LinkFactory Wire where
  type := ⟨"BRIDGE"⟩
  transport custom :=
    match custom.get? nodeKey with
    | none => .error (.invalidSettings "missing node")
    | some node =>
      match custom.get? accountKey with
      | none => .error (.invalidSettings "missing account")
      | some text =>
        match AccountId.ofText? text with
        | none => .error (.invalidSettings (AccountId.invalidMessage text))
        | some account => .ok (.other (.bridge node account))

/-- The factories of the network's nodes. -/
def factories (n : Network) : List (LinkFactory Wire) :=
  LinkFactory.usual n.urls ++ [scriptedFactory n.peers.keys, bridgeFactory]

/-- Makes the link of a node with an account, ready to be connected. -/
def makeLink (n : Network) (a : AccountSettings) : Except LinkError NetworkLink := do
  let factories := n.factories
  let settings ← a.linkSettings (factories.map LinkFactory.type)
  let l ← LinkFactory.makeAny factories settings
  let l ← l.setId (.ofAccount a.id)
  l.register (.account a.id)

end Network

end IlpConnector
