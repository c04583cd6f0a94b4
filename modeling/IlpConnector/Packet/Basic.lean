import IlpConnector.Address
import IlpConnector.ErrorCode
import IlpConnector.Time.Timestamp

/-!
# Packets

A `Prepare` asks for an amount to be sent to a destination, under a condition and until an expiry.
The answer is a `Fulfill`, with the octets whose hash is the condition, or a `Reject`, with an error
code.  A node that refuses a packet itself names its address as the origin of the refusal, or the
placeholder while it has none (`Reject.byNode`).
-/

namespace IlpConnector

structure Prepare where
  amount : UInt64
  expiresAt : Instant
  condition : Octets 32
  destination : Address
  data : Bytes
deriving DecidableEq

structure Fulfill where
  fulfillment : Octets 32
  data : Bytes
deriving DecidableEq

structure Reject where
  code : ErrorCode
  triggeredBy : Option Address
  message : Bytes
  data : Bytes
deriving DecidableEq

/-- A refusal that a node with this address makes on its own account. -/
def Reject.byNode (operator : Option Address) (code : ErrorCode) (message : String)
    (data : Bytes := []) : Reject :=
  ⟨code, some (Address.orUnset operator), Utf8.encode message, data⟩

/-- What a `Prepare` is answered with. -/
inductive Reply where
  | fulfilled (f : Fulfill)
  | rejected (r : Reject)
deriving DecidableEq

inductive Packet where
  | prepare (p : Prepare)
  | fulfill (f : Fulfill)
  | reject (r : Reject)
deriving DecidableEq

/-- A request that carries its expiry in whole milliseconds, as packets can. -/
def Prepare.build (amount : UInt64) (expiresAt : Instant) (condition : Octets 32)
    (destination : Address) (data : Bytes) : Prepare :=
  ⟨amount, expiresAt.truncateToMillis, condition, destination, data⟩

/-- The amount that was received and the largest one that is accepted, as a `Reject` for too large an
amount carries them. -/
structure AmountLimit where
  received : UInt64
  maximum : UInt64
deriving DecidableEq

end IlpConnector
