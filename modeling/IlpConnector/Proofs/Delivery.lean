import IlpConnector.Proofs.Contract
import IlpConnector.Proofs.Dict
import IlpConnector.Simulation.Procedures

/-!
# Packets that a router sends on

A packet goes on over the link with the account that the first resolver with an answer names, if it
did not come from there and the link is connected (`Router.Delivers`); else it is refused, and
nothing is done to any link.

The packet is handed over once and as it is, and a reply comes back as it is.  Whatever fails on the
link, the refusal says no more than which neighbour could not be reached (`Scheduler.goes_forward`).
-/

namespace IlpConnector

namespace Router

variable {κ : Type} {r : Router κ} {connected : κ → Bool} {operator : Option Address}
  {source : AccountSettings} {p : Prepare} {next : AccountId} {link : κ}

/-- The first resolver with an answer names this account. -/
def Leads (r : Router κ) (destination : Address) (next : AccountId) : Prop :=
  ∃ before resolver after, r.resolvers = before ++ resolver :: after ∧
    (∀ earlier ∈ before, earlier destination = none) ∧ resolver destination = some next

/-- A packet goes on to this account over this link. -/
structure Delivers (r : Router κ) (connected : κ → Bool) (source : AccountSettings) (p : Prepare)
    (next : AccountId) (link : κ) : Prop where
  leads : r.Leads p.destination next
  notBack : next ≠ source.id
  registered : r.links.get? next = some link
  connected : connected link = true

/-- The refusal of a packet that is not handed to any link. -/
structure Refuses (r : Router κ) (operator : Option Address) (source : AccountSettings)
    (p : Prepare) (refusal : Reject) : Prop where
  code : refusal.code = .unreachable ∨ refusal.code = .peerUnreachable
  /-- It is the neighbour that cannot be reached if the packet would have gone to another one than
  it came from. -/
  code_iff : refusal.code = .peerUnreachable ↔ ∃ next, r.Leads p.destination next ∧ next ≠ source.id
  triggeredBy : refusal.triggeredBy = some (Address.orUnset operator)

theorem nextHop?_eq_some_iff {destination : Address} :
    r.nextHop? destination = some next ↔ r.Leads destination next := by
  unfold nextHop? Leads
  rw [List.findSome?_eq_some_iff]
  simp only [and_comm]

theorem Leads.unique {destination : Address} {next' : AccountId} (h : r.Leads destination next)
    (h' : r.Leads destination next') : next = next' :=
  Option.some.inj ((nextHop?_eq_some_iff.mpr h).symm.trans (nextHop?_eq_some_iff.mpr h'))

theorem Delivers.unique {next' : AccountId} {link' : κ}
    (h : r.Delivers connected source p next link) (h' : r.Delivers connected source p next' link') :
    next = next' ∧ link = link' := by
  obtain rfl := h.leads.unique h'.leads
  exact ⟨rfl, Option.some.inj (h.registered.symm.trans h'.registered)⟩

theorem choose_of_delivers (h : r.Delivers connected source p next link) :
    r.choose connected operator source p = .ok (next, link) := by
  unfold choose
  rw [nextHop?_eq_some_iff.mpr h.leads]
  simp only [if_neg h.notBack, h.registered, h.connected, if_true]

theorem refuses_unreachable (message : String)
    (h : ∀ next, r.Leads p.destination next → next = source.id) :
    r.Refuses operator source p (.byNode operator .unreachable message) where
  code := Or.inl rfl
  code_iff := iff_of_false nofun fun ⟨next, hleads, hne⟩ => hne (h next hleads)
  triggeredBy := rfl

theorem refuses_peerUnreachable (message : String) (h : r.Leads p.destination next)
    (hne : next ≠ source.id) :
    r.Refuses operator source p (.byNode operator .peerUnreachable message) where
  code := Or.inr rfl
  code_iff := iff_of_true rfl ⟨next, h, hne⟩
  triggeredBy := rfl

theorem exists_choose_eq_error (h : ∀ next link, ¬ r.Delivers connected source p next link) :
    ∃ refusal, r.Refuses operator source p refusal ∧
      r.choose connected operator source p = .error refusal := by
  unfold choose
  cases hnext : r.nextHop? p.destination with
  | none =>
    refine ⟨_, refuses_unreachable _ fun next hleads => ?_, rfl⟩
    rw [nextHop?_eq_some_iff.mpr hleads] at hnext
    cases hnext
  | some next =>
    have hleads : r.Leads p.destination next := nextHop?_eq_some_iff.mp hnext
    dsimp only
    split_ifs with hback
    · exact ⟨_, refuses_unreachable _ fun next' h' => (h'.unique hleads).trans hback, rfl⟩
    · split
      · rename_i link hlink
        split_ifs with hconnected
        · exact absurd ⟨hleads, hback, hlink, hconnected⟩ (h next link)
        · exact ⟨_, refuses_peerUnreachable _ hleads hback, rfl⟩
      · exact ⟨_, refuses_peerUnreachable _ hleads hback, rfl⟩

end Router

/-! ## Tasks that send packets on -/

namespace Procedure

variable {carry : Carrier} {router : Network → Router LinkRef} {operator : Network → Option Address}
  {source : AccountSettings} {link : LinkRef} {p : Prepare} {next : AccountId}

/-- How a task goes on with what has become of a packet on the link with an account. -/
def afterSending (operator : Network → Option Address) (next : AccountId) : Outcome → Task Outcome
  | .linkFailed _ => .act (fun n => (operator n, n)) fun operator =>
    .done (.replied (.rejected (Router.unreachable operator next)))
  | other => .done other

/-- How a task goes on with a packet once it is known where it goes. -/
def afterChoice (operator : Network → Option Address) (p : Prepare) :
    Except Reject (AccountId × LinkRef) → Task Outcome
  | .error refusal => .done (.replied (.rejected refusal))
  | .ok (next, link) => .call (.send link p) (afterSending operator next)

theorem forwardBy_eq : forwardBy router operator source p
    = .act (fun n => ((router n).choose n.isConnected (operator n) source p, n))
      (afterChoice operator p) := by
  refine congrArg (Flow.act _) (funext fun choice => ?_)
  rcases choice with refusal | ⟨next, link⟩
  · rfl
  · refine congrArg (Flow.call _) (funext fun o => ?_)
    cases o <;> rfl

/-- Once the packet has been on the link, the task only reads the network. -/
theorem only_afterSending (o : Outcome) :
    (afterSending operator next o).Only (fun n n' => n' = n) fun _ => False := by
  cases o with
  | linkFailed e => exact fun n => ⟨rfl, trivial⟩
  | _ => trivial

/-- How a task goes on with a packet for a link that looks so. -/
def afterLink (carry : Carrier) (p : Prepare) :
    Option NetworkLink × Option Address × Instant → Task Outcome
  | (l, operator, now) =>
    match l.map Link.outgoing with
    | none => .done (.linkFailed (.notConnected none))
    | some (.error e) => .done (.linkFailed e)
    | some (.ok transport) => carry operator now p transport

theorem sendBy_eq : sendBy carry link p
    = .act (fun n => ((n.link? link, n.operatorOf (n.ownerOf link), n.now), n))
      (afterLink carry p) := by
  refine congrArg (Flow.act _) (funext fun ⟨l, operator, now⟩ => ?_)
  dsimp only [Flow.bind, afterLink]
  generalize l.map Link.outgoing = outgoing
  rcases outgoing with - | e | transport <;> rfl

theorem afterLink_up {l : NetworkLink} (hl : l.connected = true) (operator : Option Address)
    (now : Instant) :
    afterLink carry p (some l, operator, now) = carry operator now p l.transport := by
  rw [afterLink, Option.map_some, Link.outgoing, if_pos hl]

theorem afterLink_down {l : Option NetworkLink} (hl : l.any Link.connected = false)
    (operator : Option Address) (now : Instant) :
    ∃ e, afterLink carry p (l, operator, now) = .done (.linkFailed e) := by
  cases l with
  | none => exact ⟨_, rfl⟩
  | some l =>
    have hflag : ¬ l.connected = true := Bool.eq_false_iff.mp hl
    rw [afterLink, Option.map_some, Link.outgoing, if_neg hflag]
    exact ⟨_, rfl⟩

/-- The procedures, with another way in which transports carry packets. -/
def withCarrier (carry : Carrier) : Procedure → Task Outcome
  | send link p => sendBy carry link p
  | c => c.task

theorem withCarrier_carryPacket : withCarrier carryPacket = task := by
  funext c
  cases c <;> rfl

end Procedure

namespace Scheduler

open Procedure (Carrier forwardBy withCarrier afterSending afterChoice)

variable {carry : Carrier} {router : Network → Router LinkRef} {operator : Network → Option Address}
  {source : AccountSettings} {link : LinkRef} {p : Prepare} {next : AccountId} {id : ℕ}
  {s : Scheduler Network Procedure Outcome}

theorem goes_choose {program : Procedure → Task Outcome}
    {choice : Except Reject (AccountId × LinkRef)}
    (h : (router s.state).choose s.state.isConnected (operator s.state) source p = choice) :
    Goes program 1 (s, some (id, forwardBy router operator source p))
      (s, some (id, afterChoice operator p choice)) := by
  rw [Procedure.forwardBy_eq, ← h]
  exact goes_act _ _

theorem goes_send {f : Task Outcome} (k : Outcome → Task Outcome)
    (h : Procedure.afterLink carry p (s.state.link? link,
      s.state.operatorOf (s.state.ownerOf link), s.state.now) = f) :
    Goes (withCarrier carry) 2 (s, some (id, .call (.send link p) k))
      (s, some (id, f.bind k)) := by
  rw [← h]
  have hcall : Goes (withCarrier carry) 1 (s, some (id, .call (.send link p) k))
      (s, some (id, (Procedure.sendBy carry link p).bind k)) := goes_call _ _
  rw [Procedure.sendBy_eq] at hcall
  exact hcall.trans (goes_act _ _)

/-- A link that is connected when it gets the packet has its transport carry it. -/
theorem goes_send_up (h : s.state.isConnected link = true) (k : Outcome → Task Outcome) :
    ∃ l, s.state.link? link = some l ∧
      Goes (withCarrier carry) 2 (s, some (id, .call (.send link p) k))
        (s, some (id, (carry (s.state.operatorOf (s.state.ownerOf link)) s.state.now p
          l.transport).bind k)) := by
  obtain ⟨l, hl, hconnected⟩ := (Option.any_eq_true ..).mp h
  exact ⟨l, hl, goes_send k (hl ▸ Procedure.afterLink_up hconnected _ _)⟩

/-- A failure on the link is a refusal by the address that the node has then. -/
theorem goes_linkFailed {program : Procedure → Task Outcome} (e : LinkError) :
    Goes program 1 (s, some (id, afterSending operator next (.linkFailed e)))
      (s, some (id, .done (.replied (.rejected (Router.unreachable (operator s.state) next))))) :=
  goes_act _ _

/-- A link that is not connected any more when it gets the packet does not have its transport carry
it. -/
theorem goes_send_down (h : s.state.isConnected link = false) :
    Goes (withCarrier carry) 3 (s, some (id, .call (.send link p) (afterSending operator next)))
      (s, some (id,
        .done (.replied (.rejected (Router.unreachable (operator s.state) next))))) := by
  obtain ⟨e, he⟩ : ∃ e, Procedure.afterLink carry p (s.state.link? link,
      s.state.operatorOf (s.state.ownerOf link), s.state.now) = .done (.linkFailed e) :=
    Procedure.afterLink_down h _ _
  exact (goes_send _ he).trans (goes_linkFailed e)

/-- What becomes of a packet, whatever the resolvers answer, whatever links there are, however
transports carry packets, and whatever else goes on.

The first move hands the packet to the one link over which it is delivered, or refuses it and leaves
everything as it was.  Its transport has the packet if the link is still connected then.  A reply is
given back as it is; whatever has failed, the packet is refused for the next account, with nothing
of the failure.  Nothing else is done in the network. -/
theorem goes_forward (carry : Carrier) (router : Network → Router LinkRef)
    (operator : Network → Option Address) (source : AccountSettings) (p : Prepare) (id : ℕ)
    (s : Scheduler Network Procedure Outcome) :
    let delivers := (router s.state).Delivers s.state.isConnected source p
    (∀ next link, delivers next link →
      (∀ next' link', delivers next' link' → next = next' ∧ link = link') ∧
      Goes (withCarrier carry) 1 (s, some (id, forwardBy router operator source p))
        (s, some (id, .call (.send link p) (afterSending operator next)))) ∧
    ((∀ next link, ¬ delivers next link) →
      ∃ refusal, (router s.state).Refuses (operator s.state) source p refusal ∧
        Goes (withCarrier carry) 1 (s, some (id, forwardBy router operator source p))
          (s, some (id, .done (.replied (.rejected refusal))))) ∧
    ∀ (t : Scheduler Network Procedure Outcome) (next : AccountId),
      let refused : Point Network Procedure Outcome :=
        (t, some (id, .done (.replied (.rejected (Router.unreachable (operator t.state) next)))))
      (∀ link, t.state.isConnected link = true → ∃ l, t.state.link? link = some l ∧
        Goes (withCarrier carry) 2
          (t, some (id, .call (.send link p) (afterSending operator next)))
          (t, some (id, (carry (t.state.operatorOf (t.state.ownerOf link)) t.state.now p
            l.transport).bind (afterSending operator next)))) ∧
      (∀ link, t.state.isConnected link = false → Goes (withCarrier carry) 3
        (t, some (id, .call (.send link p) (afterSending operator next))) refused) ∧
      (∀ reply, afterSending operator next (.replied reply) = .done (.replied reply)) ∧
      (∀ e, Goes (withCarrier carry) 1
        (t, some (id, afterSending operator next (.linkFailed e))) refused) ∧
      (∀ o, (afterSending operator next o).Only (fun n n' => n' = n) fun _ => False) ∧
      (Router.unreachable (operator t.state) next).code = .peerUnreachable ∧
      (Router.unreachable (operator t.state) next).triggeredBy
        = some (Address.orUnset (operator t.state)) := by
  intro delivers
  refine ⟨fun next link h => ⟨fun _ _ => h.unique, goes_choose (Router.choose_of_delivers h)⟩,
    fun h => ?_, fun t next => ?_⟩
  · obtain ⟨refusal, hrefuses, hchoose⟩ := Router.exists_choose_eq_error h
    exact ⟨refusal, hrefuses, goes_choose hchoose⟩
  · exact ⟨fun link hup => goes_send_up hup _, fun link hdown => goes_send_down hdown,
      fun reply => rfl, goes_linkFailed, Procedure.only_afterSending, rfl, rfl⟩

namespace Junction

def erin : AccountSettings := .plain ⟨"erin", by decide +kernel⟩ .child .loopback

def dave : AccountSettings := .plain ⟨"dave", by decide +kernel⟩ .child .loopback

/-- The second resolver sends everything to Dave. -/
def toDave : Router LinkRef :=
  ⟨[fun _ => none, fun _ => some dave.id], (∅ : Dict AccountId LinkRef).insert dave.id ⟨0⟩⟩

def packet : Prepare :=
  ⟨10, ⟨0⟩, Octets.replicate 32 1, ⟨"test.dave", by decide +kernel⟩, []⟩

/-- Dave's link, which is connected or not. -/
def quiet (connected : Bool) : Scheduler Network Procedure Outcome where
  state := {
    now := ⟨0⟩
    links := [("node", {
      settings := { type := .loopback }
      transport := .loopback none
      id := some (.ofAccount dave.id)
      connected })] }

theorem delivers_erin :
    toDave.Delivers (quiet true).state.isConnected erin packet dave.id ⟨0⟩ where
  leads := ⟨[fun _ => none], fun _ => some dave.id, [], rfl, by simp, rfl⟩
  notBack := by decide
  registered := Dict.get?_insert_self _ _ _
  connected := rfl

theorem not_delivers_dave (next : AccountId) (link : LinkRef) :
    ¬ toDave.Delivers (quiet true).state.isConnected dave packet next link := fun h =>
  h.notBack (h.leads.unique delivers_erin.leads)

end Junction

open Junction

/-- Erin's packet gets to Dave's link, which answers it; Dave's own packet is refused, and so is one
for which the link is down when it gets there. -/
theorem goes_forward_junction :
    Goes Procedure.task 3
      (quiet true, some (0, forwardBy (fun _ => toDave) (fun _ => none) erin packet))
      (quiet true, some (0, .done (.replied (Loopback.answer none none packet)))) ∧
    (∃ refusal, toDave.Refuses none dave packet refusal ∧ Goes Procedure.task 1
      (quiet true, some (0, forwardBy (fun _ => toDave) (fun _ => none) dave packet))
      (quiet true, some (0, .done (.replied (.rejected refusal))))) ∧
    Goes Procedure.task 3
      (quiet false, some (0, .call (.send ⟨0⟩ packet) (afterSending (fun _ => none) dave.id)))
      (quiet false, some (0, .done (.replied (.rejected (Router.unreachable none dave.id))))) := by
  rw [← Procedure.withCarrier_carryPacket]
  obtain ⟨hdelivers, -, hlink⟩ := goes_forward Procedure.carryPacket (fun _ => toDave)
    (fun _ => none) erin packet 0 (quiet true)
  obtain ⟨-, hrefuses, hdown⟩ := goes_forward Procedure.carryPacket (fun _ => toDave)
    (fun _ => none) dave packet 0 (quiet true)
  obtain ⟨l, hl, hup⟩ := (hlink (quiet true) dave.id).1 ⟨0⟩ rfl
  obtain rfl := Option.some.inj hl
  exact ⟨(hdelivers dave.id ⟨0⟩ delivers_erin).2.trans hup, hrefuses not_delivers_dave,
    (hdown (quiet false) dave.id).2.1 ⟨0⟩ rfl⟩

end Scheduler

end IlpConnector
