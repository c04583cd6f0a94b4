import IlpConnector.Address
import IlpConnector.Oer.Read
import IlpConnector.Time.Timestamp

/-!
# Why octets are not a packet
-/

namespace IlpConnector

inductive PacketTypeError where
  /-- There is no octet to tell the type. -/
  | missing
  | unsupported (found : UInt8)
  | unexpected (found expected : UInt8)
deriving DecidableEq

def PacketTypeError.message : PacketTypeError → String
  | missing => "PacketType data not found"
  | unsupported n => s!"PacketType {n} is not supported"
  | unexpected found expected => s!"PacketType {expected} expected, found {found}"

/-- A packet that is well formed, but not the message it should be. -/
inductive MessageDefect where
  | unexpectedMode (value : UInt8)
  | otherDestination (destination : Address)
  | wrongCondition (condition : Octets 32)
  | expired
deriving DecidableEq

def MessageDefect.message : MessageDefect → String
  | unexpectedMode n => s!"Unexpected mode: {n}"
  | otherDestination a => "Packet is not a CCP message. Destination: " ++ a.text
  | wrongCondition c => "Wrong condition: " ++ Hex.encode c.toList
  | expired => "Packet expired"

inductive PacketError where
  | octets (cause : Oer.ReadError)
  | timestamp (cause : Timestamp.ReadError)
  | packetType (cause : PacketTypeError)
  | trailing (length : Nat)
  | address (cause : AddressError)
  | defect (cause : MessageDefect)
  | text (cause : Utf8.DecodeError)
deriving DecidableEq

namespace PacketError

def message : PacketError → String
  | octets e => "I/O Error: " ++ e.message
  | timestamp e => "Chrono Error: " ++ e.message
  | packetType e => "PacketType Error: " ++ e.message
  | trailing n => s!"Trailing bytes after packet: {n}"
  | address e => "Invalid Address: " ++ e.message
  | defect e => "Invalid Packet: " ++ e.message
  | text e => "UTF-8 Error: " ++ e.message

end PacketError

/-- Reads with a reader of fields, as a part of a packet. -/
def Oer.asPacket {α : Type} (r : Reader Oer.ReadError α) : Reader PacketError α := fun b =>
  (r b).mapError .octets

end IlpConnector
