import IlpConnector.Ccp.Codec
import IlpConnector.Link.Local
import IlpConnector.Scenario.Fields

/-!
# Packets in a scenario

The packets that a scenario sends and the ones that its neighbours answer with.  A time is given
from the start of 1970 on or from now on, and a routing table by its id or by a name.
-/

namespace IlpConnector

namespace Reading

/-- What the packets of a scenario may refer to. -/
structure Context where
  now : Instant
  /-- The table ids that go by a name. -/
  named : String → Reading TableId

/-- The name of the node's own table. -/
def ownTable : String := "own"

/-- The name of a message's speaker if there is no other. -/
def usualSpeaker : String := "example.remote"

/-- Seconds until a packet expires that does not say when. -/
def usualLifetime : Int := 30

/-- The id of no table. -/
def noTable : TableId := ⟨.replicate 16 0⟩

/-- A time that a table of seconds and nanoseconds or of milliseconds from now on gives. -/
def timeAt (c : Context) (key : String) (d : Document) : Instant :=
  match d.field? key with
  | none => c.now.addSeconds usualLifetime
  | some t =>
    match t.field? "in_ms" with
    | some ms => c.now.addMillis ms.toInt
    | none => .ofSeconds (t.field "secs").toInt (t.field "nanos").toInt

def tableIdAt (c : Context) (key : String) (d : Document) : Reading TableId :=
  let s := ((d.field? key).map Document.toText).getD ownTable
  match TableId.ofText? s with
  | some id => .ok id
  | none => c.named s

/-- The condition of route messages, the one of pings, or any octets. -/
def conditionOf : Document → Octets 32
  | .text "zero" => peerCondition
  | .text "ping" => Ping.condition
  | d => d.toWide

def control (c : Context) (d : Document) : Reading RouteControl := do
  let id ← tableIdAt c "table_id" d
  return {
    mode := if d.textAt "mode" = RouteMode.idle.name then .idle else .sync
    tableId := id
    epoch := .ofNat (d.natAt "epoch")
    features := d.textsAt "features" }

def prop (d : Document) : RouteProp where
  isOptional := d.boolAt "optional"
  isTransitive := d.boolAt "transitive"
  isPartial := d.boolAt "partial"
  id := .ofNat (d.natAt "id")
  isText := d.boolAt "utf8"
  value := d.octetsAt "value"

def announcement (d : Document) : Reading Announcement := do
  let target ← prefixAt "prefix" d
  let path ← addressesAt "path" d
  return ⟨target, path, d.wideAt "auth", (d.listAt "props").map prop⟩

def update (c : Context) (d : Document) : Reading RouteUpdate := do
  let id ← tableIdAt c "table_id" d
  let speaker ← ofAddress (((d.field? "speaker").map Document.toText).getD usualSpeaker)
  let announced ← (d.listAt "new").mapM announcement
  let withdrawn ← prefixesAt "withdrawn" d
  return {
    tableId := id
    currentEpoch := .ofNat ((d.field? "current").getD (d.field "to")).toNat
    fromEpoch := .ofNat (d.natAt "from")
    toEpoch := .ofNat (d.natAt "to")
    holdDown := .ofNat (d.natAt "hold_down")
    speaker, announced, withdrawn }

/-- A request, with a route message or with data of its own. -/
def prepare (c : Context) (d : Document) : Reading Prepare := do
  let expiresAt := timeAt c "expires" d
  match d.field? "control", d.field? "update" with
  | some m, _ => return (← control c m).toPrepare expiresAt
  | none, some m => return (← update c m).toPrepare expiresAt
  | none, none =>
    let destination ← addressAt "destination" d
    return .build (.ofNat (d.natAt "amount")) expiresAt (conditionOf (d.field "condition"))
      destination (d.octetsAt "data")

def prepareAt (c : Context) (d : Document) : Reading Prepare := prepare c (d.field "prepare")

def fulfill (d : Document) : Fulfill := ⟨d.wideAt "fulfillment", d.octetsAt "data"⟩

def reject (d : Document) : Reading Reject := do
  let triggeredBy ← operatorAt "triggered_by" d
  let code ← match d.field? "code_hex" with
    | some h => pure ⟨(Octets.ofList? h.toOctets).getD default⟩
    | none => ofErrorCode (d.textAt "code")
  let message := match d.field? "message_hex" with
    | some h => h.toOctets
    | none => Utf8.encode (d.textAt "message")
  return ⟨code, triggeredBy, message, d.octetsAt "data"⟩

end Reading

end IlpConnector
