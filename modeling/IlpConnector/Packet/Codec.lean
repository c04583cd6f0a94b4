import IlpConnector.Oer.Write
import IlpConnector.Packet.Basic
import IlpConnector.Packet.Error

/-!
# The octets of packets

A packet is the octet of its type and a variable-length string with its content, and nothing after
that; the content is fields one after the other, and nothing after those.

The writers announce the content's length by the sizes of its fields (`Prepare.contentSize` and so
on), where an expiry has seventeen octets.
-/

namespace IlpConnector

namespace Packet

def prepareType : UInt8 := 12
def fulfillType : UInt8 := 13
def rejectType : UInt8 := 14

/-- Nothing may be left. -/
def ensureEnd (rest : Bytes) : Except PacketError Unit :=
  if rest.isEmpty then .ok () else .error (.trailing rest.length)

/-- The content of a packet of the given type. -/
def openEnvelope (expected : UInt8) : Bytes → Except PacketError Bytes
  | [] => .error (.packetType .missing)
  | found :: b =>
    if found = expected then do
      let (content, rest) ← Oer.asPacket Oer.readString b
      ensureEnd rest
      return content
    else .error (.packetType (.unexpected found expected))

/-- A packet's type and the announced length of its content, before the content. -/
def envelope (type : UInt8) (contentSize : Nat) : Bytes :=
  type :: Oer.writeLength contentSize

end Packet

open Oer Packet

namespace Prepare

def timestampSize : Nat := 17

def contentSize (p : Prepare) : Nat :=
  8 + timestampSize + 32 + stringSize p.destination.bytes.length + stringSize p.data.length

def content (p : Prepare) : Bytes :=
  writeUInt64 p.amount ++ Utf8.encode (Timestamp.write p.expiresAt) ++ p.condition.toList
    ++ writeString p.destination.bytes ++ writeString p.data

def encode (p : Prepare) : Bytes :=
  envelope prepareType p.contentSize ++ p.content

/-- An expiry, as the seventeen octets of a timestamp. -/
def readExpiry (b : Bytes) : Except PacketError (Instant × Bytes) := do
  let (stamp, b) ← asPacket (readBytes timestampSize) b
  let text ← (Utf8.decode stamp).mapError .text
  let expiresAt ← (Timestamp.read text).mapError .timestamp
  return (expiresAt, b)

def decode (b : Bytes) : Except PacketError Prepare := do
  let b ← openEnvelope prepareType b
  let (amount, b) ← asPacket readUInt64 b
  let (expiresAt, b) ← readExpiry b
  let (condition, b) ← asPacket (readField 32) b
  let (destination, b) ← asPacket readString b
  let destination ← (Address.ofBytes destination).mapError .address
  let (data, b) ← asPacket readString b
  ensureEnd b
  return ⟨amount, expiresAt, condition, destination, data⟩

end Prepare

namespace Fulfill

def contentSize (f : Fulfill) : Nat :=
  32 + stringSize f.data.length

def content (f : Fulfill) : Bytes :=
  f.fulfillment.toList ++ writeString f.data

def encode (f : Fulfill) : Bytes :=
  envelope fulfillType f.contentSize ++ f.content

def decode (b : Bytes) : Except PacketError Fulfill := do
  let b ← openEnvelope fulfillType b
  let (fulfillment, b) ← asPacket (readField 32) b
  let (data, b) ← asPacket readString b
  ensureEnd b
  return ⟨fulfillment, data⟩

end Fulfill

namespace Reject

/-- The address of the node that refused, or nothing. -/
def triggeredByBytes (r : Reject) : Bytes :=
  match r.triggeredBy with
  | some a => a.bytes
  | none => []

def contentSize (r : Reject) : Nat :=
  3 + stringSize r.triggeredByBytes.length + stringSize r.message.length
    + stringSize r.data.length

def content (r : Reject) : Bytes :=
  r.code.octets.toList ++ writeString r.triggeredByBytes ++ writeString r.message
    ++ writeString r.data

def encode (r : Reject) : Bytes :=
  envelope rejectType r.contentSize ++ r.content

/-- The refusing node's address; no octets stand for none. -/
def triggeredByOf (b : Bytes) : Except PacketError (Option Address) :=
  if b.isEmpty then .ok none else ((Address.ofBytes b).mapError .address).map some

def decode (b : Bytes) : Except PacketError Reject := do
  let b ← openEnvelope rejectType b
  let (code, b) ← asPacket (readField 3) b
  let (triggeredBy, b) ← asPacket readString b
  let triggeredBy ← triggeredByOf triggeredBy
  let (message, b) ← asPacket readString b
  let (data, b) ← asPacket readString b
  ensureEnd b
  return ⟨⟨code⟩, triggeredBy, message, data⟩

end Reject

namespace Packet

def encode : Packet → Bytes
  | .prepare p => p.encode
  | .fulfill f => f.encode
  | .reject r => r.encode

/-- The packet of whichever type the first octet tells. -/
def decode (b : Bytes) : Except PacketError Packet :=
  match b with
  | [] => .error (.packetType .missing)
  | type :: _ =>
    if type = prepareType then (Prepare.decode b).map .prepare
    else if type = fulfillType then (Fulfill.decode b).map .fulfill
    else if type = rejectType then (Reject.decode b).map .reject
    else .error (.packetType (.unsupported type))

end Packet

namespace Reply

def toPacket : Reply → Packet
  | .fulfilled f => .fulfill f
  | .rejected r => .reject r

end Reply

namespace AmountLimit

def encode (d : AmountLimit) : Bytes :=
  writeUInt64 d.received ++ writeUInt64 d.maximum

/-- Reads the two amounts, and ignores what follows them. -/
def decode (b : Bytes) : Except Oer.ReadError AmountLimit := do
  let (received, b) ← readUInt64 b
  let (maximum, _) ← readUInt64 b
  return ⟨received, maximum⟩

end AmountLimit

end IlpConnector
