import IlpConnector.Document.Basic
import IlpConnector.Packet.Codec

/-!
# Packets as documents

How packets are reported: octets as hexadecimal text, amounts as text because not every reader can
hold 64 bits, and codes and messages as text where they are text.
-/

namespace IlpConnector

namespace Document

def octets (b : Bytes) : Document := .text (Hex.encode b)

def amount (n : UInt64) : Document := .text (toString n.toNat)

def nat (n : Nat) : Document := .int n

def texts (ss : List String) : Document := .list (ss.map .text)

end Document

def Instant.toDocument (t : Instant) : Document :=
  .table [("secs", .int t.seconds), ("nanos", .int t.subsecond)]

def ErrorClass.name : ErrorClass → String
  | final => "Final"
  | temporary => "Temporary"
  | relative => "Relative"
  | unknown => "Unknown"

namespace Packet

/-- An entry for octets that should be text; others are hexadecimal, under another name. -/
def textEntry (name : String) (b : Bytes) : String × Document :=
  match Utf8.decode b with
  | .ok s => (name, .text s)
  | .error _ => (name ++ "_hex", .octets b)

def toDocument : Packet → Document
  | prepare p =>
    .table [("type", .text "prepare"), ("amount", .amount p.amount),
      ("expires_at", p.expiresAt.toDocument), ("condition", .octets p.condition.toList),
      ("destination", .text p.destination.text), ("data", .octets p.data)]
  | fulfill f =>
    .table [("type", .text "fulfill"), ("fulfillment", .octets f.fulfillment.toList),
      ("data", .octets f.data)]
  | reject r =>
    .table [("type", .text "reject"), textEntry "code" r.code.octets.toList,
      ("class", .text r.code.errorClass.name),
      ("triggered_by", .ofOption (fun a => .text a.text) r.triggeredBy),
      textEntry "message" r.message, ("data", .octets r.data)]

end Packet

def Reply.toDocument (r : Reply) : Document := r.toPacket.toDocument

end IlpConnector
