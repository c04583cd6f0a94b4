import IlpConnector.Digest.Sha256
import IlpConnector.Packet.Codec
import IlpConnector.Switch.RateLimit

/-!
# The packet switch

A packet from a neighbour passes a chain of filters before it is forwarded.  A filter refuses the
packet or lets it pass, and may have a say about the answer on its way back: then it leaves a
`Guard` behind.  `PacketSwitch.enter` sends a packet through the chain, and gives either the refusal
or the guards that the answer of the forwarder has to pass, the outermost first.
-/

namespace IlpConnector

inductive Filter where
  /-- Refuses expired packets, and waits for the answer no longer than until the expiry. -/
  | expiry
  | rateLimit
  | maximumAmount
  /-- Accepts a fulfillment only if its hash is the packet's condition. -/
  | fulfillment
  /-- Lets everything pass, and notes how many filters are still to come. -/
  | probe (name : String)
deriving DecidableEq

/-- The usual filters, the outermost first. -/
def Filter.usual : List Filter := [.expiry, .rateLimit, .maximumAmount, .fulfillment]

/-- What a filter has to say about the answer. -/
inductive Guard where
  /-- The answer must come within so many nanoseconds. -/
  | deadline (nanos : Nat)
  /-- A fulfillment must have this hash. -/
  | condition (hash : Octets 32)
deriving DecidableEq

namespace Guard

/-- The refusal of a packet whose time is up. -/
def timedOut (operator : Option Address) : Reply :=
  .rejected (.byNode operator .transferTimedOut "Transfer Timed-out")

/-- What a guard makes of an answer that comes in time. -/
def review (operator : Option Address) : Guard → Reply → Reply
  | deadline _, r => r
  | condition hash, .fulfilled f =>
    if Sha256.digest f.fulfillment.toList = hash then .fulfilled f
    else .rejected (.byNode operator .invalidPeerResponse "Fulfillment did not match condition")
  | condition _, .rejected r => .rejected r

end Guard

/-- What a filter does with a packet. -/
inductive Screening where
  | refused (r : Reject)
  | passed (guard : Option Guard)

namespace Filter

/-- The refusal of a packet that is too large, with both amounts. -/
def tooLarge (operator : Option Address) (amount maximum : UInt64) : Reject :=
  .byNode operator .amountTooLarge
    ("Packet size too large: maxAmount=" ++ toString maximum.toNat ++ " actualAmount="
      ++ toString amount.toNat)
    (AmountLimit.encode ⟨amount, maximum⟩)

def tooLate (operator : Option Address) : Reject :=
  .byNode operator .insufficientTimeout
    "The connector could not forward the payment, because the timeout was too low to subtract its safety margin"

def tooMany (operator : Option Address) : Reject :=
  .byNode operator .rateLimited "Too many packets per second"

/-- A filter's decision about a packet at a time and at a reading of the limiters' clock, and the
filter's limiters after that. -/
def screen (g : Governor) (reading : Nat) (operator : Option Address) (now : Instant)
    (source : AccountSettings) (limiters : Limiters) (p : Prepare) : Filter → Screening × Limiters
  | expiry =>
    if p.expiresAt ≤ now then (.refused (tooLate operator), limiters)
    else (.passed (some (.deadline (p.expiresAt.nanos - now.nanos).toNat)), limiters)
  | rateLimit =>
    match source.maxPacketsPerSecond with
    | none => (.passed none, limiters)
    | some limit =>
      let (admitted, limiters) := g.acquire reading limiters source.id limit
      (if admitted then .passed none else .refused (tooMany operator), limiters)
  | maximumAmount =>
    match source.maximumPacketAmount with
    | none => (.passed none, limiters)
    | some maximum =>
      if maximum < p.amount then (.refused (tooLarge operator p.amount maximum), limiters)
      else (.passed none, limiters)
  | fulfillment => (.passed (some (.condition p.condition)), limiters)
  | probe _ => (.passed none, limiters)

end Filter

/-- A packet that has entered the switch. -/
structure Entry where
  /-- The guards that the packet has passed, and why it was refused after that, if it was. -/
  guards : List Guard
  refusal : Option Reject
  /-- The limiters of the filters. -/
  limiters : List Limiters
  /-- The probes it has passed, with the numbers of filters after them. -/
  probes : List (String × Nat)

namespace PacketSwitch

/-- Sends a packet through the filters, each of which has limiters of its own. -/
def enter (g : Governor) (reading : Nat) (operator : Option Address) (now : Instant)
    (source : AccountSettings) (p : Prepare) : List Filter → List Limiters → Entry
  | [], limiters => ⟨[], none, limiters, []⟩
  | f :: rest, limiters =>
    match f.screen g reading operator now source (limiters.headD ∅) p with
    | (.refused r, own) => ⟨[], some r, own :: limiters.tail, []⟩
    | (.passed guard, own) =>
      let e := enter g reading operator now source p rest limiters.tail
      { e with
        guards := guard.toList ++ e.guards
        limiters := own :: e.limiters
        probes := (match f with
          | .probe name => [(name, rest.length)]
          | _ => []) ++ e.probes }

/-- The refusal of a packet from an account that is not known. -/
def unknownSource (operator : Option Address) (account : AccountId) : Reject :=
  .byNode operator .badRequest ("Unknown source account: " ++ account.text)

end PacketSwitch

end IlpConnector
