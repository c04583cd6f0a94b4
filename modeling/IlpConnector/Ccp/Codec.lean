import IlpConnector.Ccp.Message
import IlpConnector.Digest.Sha256
import IlpConnector.Packet.Codec

/-!
# The octets of route messages

The readers take the fields one after the other, and lists by a count before them; what follows the
last field is ignored.  A message is read from a packet only if the packet has the message's
destination and the common condition, and, where `now` is given, has not expired.
-/

namespace IlpConnector

open Oer

/-- What every route message is fulfilled with: 32 octets of zero. -/
def peerFulfillment : Octets 32 := Octets.replicate 32 0

/-- The condition of every route message. -/
def peerCondition : Octets 32 := Sha256.digest peerFulfillment.toList

/-- The answer to every route message that is accepted. -/
def routeResponse : Fulfill := ⟨peerFulfillment, []⟩

def controlDestination : Address where
  text := "peer.route.control"
  valid := by decide +kernel

def updateDestination : Address where
  text := "peer.route.update"
  valid := by decide +kernel

/-- A packet that carries a route message. -/
def messagePacket (destination : Address) (expiresAt : Instant) (data : Bytes) : Prepare :=
  .build 0 expiresAt peerCondition destination data

/-- A packet for the destination, under the common condition. -/
def checkMessage (destination : Address) (p : Prepare) : Except MessageDefect Unit :=
  if p.destination ≠ destination then .error (.otherDestination p.destination)
  else if p.condition ≠ peerCondition then .error (.wrongCondition p.condition)
  else .ok ()

/-- A packet that has not expired. -/
def checkExpiry (now : Instant) (p : Prepare) : Except MessageDefect Unit :=
  if p.expiresAt < now then .error .expired else .ok ()

def readTableId : Reader PacketError TableId := fun b =>
  (asPacket (readOctets 16) b).map fun r => (⟨r.1⟩, r.2)

def readAddress : Reader PacketError Address := fun b => do
  let (text, b) ← asPacket readString b
  let a ← (Address.ofBytes text).mapError .address
  return (a, b)

def readAddressPrefix : Reader PacketError AddressPrefix := fun b => do
  let (text, b) ← asPacket readString b
  let p ← (AddressPrefix.ofBytes text).mapError .address
  return (p, b)

def readText : Reader PacketError String := fun b => do
  let (text, b) ← asPacket readString b
  let s ← (Utf8.decode text).mapError .text
  return (s, b)

/-- A list of items after their number. -/
def readList {α : Type} (item : Reader PacketError α) : Reader PacketError (List α) := fun b => do
  let (n, b) ← asPacket readVarUInt b
  readMany item n.toNat b

def writeList {α : Type} (item : α → Bytes) (as : List α) : Bytes :=
  writeVarUInt (.ofNat as.length) ++ as.flatMap item

namespace RouteControl

def content (c : RouteControl) : Bytes :=
  writeUInt8 c.mode.octet ++ c.tableId.octets.toList ++ writeUInt32 c.epoch
    ++ writeList (fun f => writeString (Utf8.encode f)) c.features

def toPrepare (c : RouteControl) (expiresAt : Instant) : Prepare :=
  messagePacket controlDestination expiresAt c.content

def readMode : Reader PacketError RouteMode := fun b => do
  let (o, b) ← asPacket readUInt8 b
  let m ← (RouteMode.ofOctet o).mapError .defect
  return (m, b)

def read : Reader PacketError RouteControl := fun b => do
  let (mode, b) ← readMode b
  let (tableId, b) ← readTableId b
  let (epoch, b) ← asPacket readUInt32 b
  let (features, b) ← readList readText b
  return (⟨mode, tableId, epoch, features⟩, b)

/-- The message that a packet carries, expired or not. -/
def ofPrepareAnyTime (p : Prepare) : Except PacketError RouteControl := do
  (checkMessage controlDestination p).mapError .defect
  let (c, _) ← read p.data
  return c

/-- The message that a packet carries. -/
def ofPrepare (now : Instant) (p : Prepare) : Except PacketError RouteControl := do
  (checkExpiry now p).mapError .defect
  ofPrepareAnyTime p

end RouteControl

namespace RouteProp

def optionalFlag : UInt8 := 0x80
def transitiveFlag : UInt8 := 0x40
def partialFlag : UInt8 := 0x20
def textFlag : UInt8 := 0x10

def flags (p : RouteProp) : UInt8 :=
  (if p.isOptional then optionalFlag else 0) ||| (if p.isTransitive then transitiveFlag else 0)
    ||| (if p.isPartial then partialFlag else 0) ||| (if p.isText then textFlag else 0)

def write (p : RouteProp) : Bytes :=
  writeUInt8 p.flags ++ writeUInt16 p.id ++ writeString p.value

def read : Reader PacketError RouteProp := fun b => do
  let (flags, b) ← asPacket readUInt8 b
  let (id, b) ← asPacket readUInt16 b
  let (value, b) ← asPacket readString b
  return (⟨flags &&& optionalFlag != 0, flags &&& transitiveFlag != 0, flags &&& partialFlag != 0,
    id, flags &&& textFlag != 0, value⟩, b)

end RouteProp

namespace Announcement

def write (a : Announcement) : Bytes :=
  writeString a.target.bytes ++ writeList (fun x => writeString x.bytes) a.path ++ a.auth.toList
    ++ writeList RouteProp.write a.props

def read : Reader PacketError Announcement := fun b => do
  let (target, b) ← readAddressPrefix b
  let (path, b) ← readList readAddress b
  let (auth, b) ← asPacket (readOctets 32) b
  let (props, b) ← readList RouteProp.read b
  return (⟨target, path, auth, props⟩, b)

end Announcement

namespace RouteUpdate

def content (u : RouteUpdate) : Bytes :=
  u.tableId.octets.toList ++ writeUInt32 u.currentEpoch ++ writeUInt32 u.fromEpoch
    ++ writeUInt32 u.toEpoch ++ writeUInt32 u.holdDown ++ writeString u.speaker.bytes
    ++ writeList Announcement.write u.announced ++ writeList (fun p => writeString p.bytes) u.withdrawn

def toPrepare (u : RouteUpdate) (expiresAt : Instant) : Prepare :=
  messagePacket updateDestination expiresAt u.content

def read : Reader PacketError RouteUpdate := fun b => do
  let (tableId, b) ← readTableId b
  let (currentEpoch, b) ← asPacket readUInt32 b
  let (fromEpoch, b) ← asPacket readUInt32 b
  let (toEpoch, b) ← asPacket readUInt32 b
  let (holdDown, b) ← asPacket readUInt32 b
  let (speaker, b) ← readAddress b
  let (announced, b) ← readList Announcement.read b
  let (withdrawn, b) ← readList readAddressPrefix b
  return (⟨tableId, currentEpoch, fromEpoch, toEpoch, holdDown, speaker, announced, withdrawn⟩, b)

/-- The message that a packet carries, expired or not. -/
def ofPrepareAnyTime (p : Prepare) : Except PacketError RouteUpdate := do
  (checkMessage updateDestination p).mapError .defect
  let (u, _) ← read p.data
  return u

/-- The message that a packet carries. -/
def ofPrepare (now : Instant) (p : Prepare) : Except PacketError RouteUpdate := do
  (checkExpiry now p).mapError .defect
  ofPrepareAnyTime p

end RouteUpdate

end IlpConnector
