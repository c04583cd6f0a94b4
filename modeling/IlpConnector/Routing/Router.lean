import IlpConnector.Account.Basic
import IlpConnector.Dict
import IlpConnector.Packet.Basic

/-!
# The router

A packet goes to the account that the first resolver with an answer names, over that account's
link.  A packet that would go back to where it came from is refused, like one without a route; and
whatever keeps the link from carrying the packet, the refusal names the next hop only.
-/

namespace IlpConnector

/-- Tells the account that leads to an address, if it knows one. -/
abbrev Resolver := Address → Option AccountId

/-- What sends packets on, with links of type `κ`. -/
structure Router (κ : Type) where
  /-- The first one with an answer counts. -/
  resolvers : List Resolver
  /-- The links with the accounts. -/
  links : Dict AccountId κ

namespace Router

variable {κ : Type}

/-- The account that the first resolver with an answer names. -/
def nextHop? (r : Router κ) (destination : Address) : Option AccountId :=
  r.resolvers.findSome? (· destination)

/-- The account to which a packet goes on and the link with it, which is connected; or the refusal
of the packet. -/
def choose (r : Router κ) (connected : κ → Bool) (operator : Option Address)
    (source : AccountSettings) (p : Prepare) : Except Reject (AccountId × κ) :=
  match r.nextHop? p.destination with
  | none =>
    .error (.byNode operator .unreachable ("No route found for destination " ++ p.destination.text))
  | some next =>
    if next = source.id then
      .error (.byNode operator .unreachable
        "Refusing to route a packet back to the account it came from")
    else
      match r.links.get? next with
      | some link =>
        if connected link then .ok (next, link)
        else
          .error (.byNode operator .peerUnreachable
            ("Link for account " ++ next.text ++ " is not connected"))
      | none =>
        .error (.byNode operator .peerUnreachable ("No link for account " ++ next.text))

/-- The refusal of a packet that a link has failed to deliver. -/
def unreachable (operator : Option Address) (next : AccountId) : Reject :=
  .byNode operator .peerUnreachable ("Unable to reach peer " ++ next.text)

end Router

end IlpConnector
