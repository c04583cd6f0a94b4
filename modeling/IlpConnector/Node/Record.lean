import IlpConnector.Ccp.Record
import IlpConnector.Node.Basic

/-!
# The state of a node as a document

What a node knows about routes, a line of text for each route.
-/

namespace IlpConnector

namespace Route

/-- The route with its path and the first digits of its tag. -/
def line (r : Route) : String :=
  r.target.text ++ " via " ++ r.nextHop.text ++ " path "
    ++ ",".intercalate (r.path.map Address.text) ++ " auth "
    ++ String.ofList ((Hex.encodeChars r.auth.toList).take 8)

/-- A route that is on offer. -/
def offerLine (r : Route) : String :=
  r.target.text ++ " " ++ " ".intercalate (r.path.map Address.text)

end Route

/-- The mode, the epoch that is told next, and whether a broadcast is to run. -/
def Sender.toDocument (s : Sender) : Document :=
  .list [.text s.mode.name, .nat s.nextEpoch.toNat, .bool s.broadcast.isSome]

/-- The neighbour's table, the epoch that is expected next, and what is on offer. -/
def Receiver.toDocument (r : Receiver) : Document :=
  .list [.text r.tableId.text, .nat r.epoch.toNat, .texts (r.learned.values.map Route.offerLine)]

namespace Node

/-- The forwarding table, and what is told to and by the neighbours. -/
def routeEntries (n : Node) : List (String × Document) :=
  [("table", .text n.table.id.text), ("epoch", .nat n.table.epoch.toNat),
    ("routes", .texts (n.table.routes.values.map Route.line)),
    ("senders",
      .table (n.broadcaster.senders.entries.map fun e => (e.1.text, e.2.toDocument))),
    ("receivers",
      .table (n.broadcaster.receivers.entries.map fun e => (e.1.text, e.2.toDocument)))]

/-- The node's address, and whether it knows it. -/
def operatorEntries (operator : Option Address) (isSet : String) : List (String × Document) :=
  [("operator", .text (Address.orUnset operator).text), (isSet, .bool operator.isSome)]

end Node

end IlpConnector
