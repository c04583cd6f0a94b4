import IlpConnector.Packet.Error
import IlpConnector.Packet.Basic

/-!
# Route messages

Neighbours tell each other which prefixes they can reach.  A node asks with a `RouteControl` to be
told, from some epoch of the other's routing table on, and is told with a `RouteUpdate` for each
stretch of epochs.  Both travel as packets without an amount, to an address of their own, under a
condition that everyone can fulfill.
-/

namespace IlpConnector

/-- One incarnation of a routing table; a table that starts over has another id. -/
structure TableId where
  octets : Octets 16
deriving DecidableEq

namespace TableId

/-- The id in five groups of hexadecimal digits. -/
def text (t : TableId) : String :=
  let cs := Hex.encodeChars t.octets.toList
  String.ofList (cs.take 8 ++ '-' :: (cs.drop 8).take 4 ++ '-' :: (cs.drop 12).take 4
    ++ '-' :: (cs.drop 16).take 4 ++ '-' :: cs.drop 20)

/-- The id of 32 hexadecimal digits, with dashes anywhere. -/
def ofText? (s : String) : Option TableId := do
  let b ← Hex.decodeChars? (s.toList.filter (· ≠ '-'))
  let o ← Octets.ofList? b
  return ⟨o⟩

def debugText (t : TableId) : String := "RoutingTableId(" ++ t.text ++ ")"

end TableId

/-- Whether a node wants to be told about routes. -/
inductive RouteMode where
  | idle
  | sync
deriving DecidableEq

namespace RouteMode

def octet : RouteMode → UInt8
  | idle => 0
  | sync => 1

def ofOctet (o : UInt8) : Except MessageDefect RouteMode :=
  if o = 0 then .ok idle
  else if o = 1 then .ok sync
  else .error (.unexpectedMode o)

def name : RouteMode → String
  | idle => "Idle"
  | sync => "Sync"

end RouteMode

/-- Asks a neighbour to start or stop sending updates, from the given epoch of the given table on. -/
structure RouteControl where
  mode : RouteMode
  tableId : TableId
  epoch : UInt32
  features : List String
deriving DecidableEq

/-- More about a route, that this version gives no meaning. -/
structure RouteProp where
  isOptional : Bool
  isTransitive : Bool
  isPartial : Bool
  id : UInt16
  isText : Bool
  value : Bytes
deriving DecidableEq

/-- A route that a neighbour offers. -/
structure Announcement where
  target : AddressPrefix
  path : List Address
  auth : Octets 32
  props : List RouteProp
deriving DecidableEq

/-- The changes of a neighbour's table from one epoch up to another one. -/
structure RouteUpdate where
  tableId : TableId
  currentEpoch : UInt32
  fromEpoch : UInt32
  toEpoch : UInt32
  holdDown : UInt32
  speaker : Address
  announced : List Announcement
  withdrawn : List AddressPrefix
deriving DecidableEq

/-- An update that changes nothing. -/
def RouteUpdate.isHeartbeat (u : RouteUpdate) : Bool :=
  u.announced.isEmpty && u.withdrawn.isEmpty

end IlpConnector
