import IlpConnector.Ccp.Broadcaster
import IlpConnector.Ccp.Codec

/-!
# Route messages from a neighbour

A packet for one of the two addresses of route messages is taken by the sender or the receiver of
the account it came from; every other packet is for the packet switch.  What arrives is answered at
once, and may set something going that does not keep the answer waiting.
-/

namespace IlpConnector

/-- What a route message sets going. -/
inductive RouteErrand where
  /-- A broadcast to the neighbour, under its number. -/
  | broadcast (number : Nat)
  /-- A request to the neighbour to be told anew, by the receiver with this number. -/
  | request (serial : Nat)
deriving DecidableEq

/-- What becomes of a packet from a neighbour. -/
inductive Reception where
  | answered (r : Reply) (errand : Option RouteErrand)
  /-- The packet is for the packet switch. -/
  | switched

namespace Broadcaster

def refuse (operator : Option Address) (e : RoutingError) : Reception :=
  .answered (.rejected (.byNode operator .badRequest e.message)) none

def accepted (errand : Option RouteErrand) : Reception :=
  .answered (.fulfilled routeResponse) errand

/-- Takes a request for routes from an account. -/
def receiveControl (b : Broadcaster) (operator : Option Address) (now : Instant)
    (account : AccountId) (p : Prepare) : Reception × Broadcaster :=
  match RouteControl.ofPrepare now p with
  | .error e => (refuse operator (.invalidMessage e), b)
  | .ok c =>
    match b.senders.get? account with
    | none => (refuse operator (.notRouting account), b)
    | some s =>
      let (started, b) := b.obey s c
      (accepted (started.map .broadcast), b)

/-- Takes an update from an account.  After an update that starts too late, the neighbour is asked to
tell anew. -/
def receiveUpdate (b : Broadcaster) (operator : Option Address) (now : Instant)
    (account : AccountId) (p : Prepare) : Reception × Broadcaster :=
  match RouteUpdate.ofPrepare now p with
  | .error e => (refuse operator (.invalidMessage e), b)
  | .ok u =>
    match b.receivers.get? account with
    | none => (refuse operator (.notRouting account), b)
    | some r =>
      match b.update r operator u with
      | (.ok _, b) => (accepted none, b)
      | (.error g, b) =>
        (.answered (.rejected (.byNode operator .badRequest (RoutingError.gap g).message))
          (some (.request r.serial)), b)

/-- Takes a packet from an account. -/
def receive (b : Broadcaster) (operator : Option Address) (now : Instant) (account : AccountId)
    (p : Prepare) : Reception × Broadcaster :=
  if p.destination = controlDestination then b.receiveControl operator now account p
  else if p.destination = updateDestination then b.receiveUpdate operator now account p
  else (.switched, b)

end Broadcaster

end IlpConnector
