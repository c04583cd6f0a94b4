import IlpConnector.Proofs.Isolation
import IlpConnector.Proofs.Scheduling
import IlpConnector.Simulation.Procedures

/-!
# Packets of neighbours on their way through a node

A packet that a link brings is taken in one step, and its answer waits for nothing: what a route
message sets going is a task of its own (`Scheduler.setGoing`).  So an update that starts too late
has one request sent, and no other message has any (`Broadcaster.reception_of_reached`).
-/

namespace IlpConnector

/-! ## Packets that a link brings -/

/-- A link brings packets of an account to a node. -/
structure Network.Brings (n : Network) (link : LinkRef) (name : String) (account : AccountId)
    (m : Node) : Prop where
  owner : n.ownerOf link = name
  handler : ∃ l id, n.link? link = some l ∧ l.incoming = .ok (id, .account account)
  node : n.nodes.get? name = some m

/-- The procedure that an errand is. -/
def RouteErrand.procedure (name : String) (account : AccountId) : RouteErrand → Procedure
  | .broadcast number => .broadcast name account number
  | .request serial => .request name account serial

namespace Procedure

variable {link : LinkRef} {name : String} {account : AccountId} {p : Prepare}

/-- A node takes a packet of an account. -/
def handing (name : String) (account : AccountId) (p : Prepare) (n : Network) :
    Reception × Network :=
  match n.nodes.get? name with
  | some m => ((m.receive n.now account p).1, n.setNode name (m.receive n.now account p).2)
  | none => (.switched, n)

/-- How a task goes on with a packet that a node has taken. -/
def afterReception (name : String) (account : AccountId) (p : Prepare) : Reception → Task Outcome
  | .switched => .call (.switch name account p) .done
  | .answered reply none => .done (.replied reply)
  | .answered reply (some e) =>
    .spawn (e.procedure name account) fun _ => .done (.replied reply)

/-- How a task goes on with a packet that has come in on a link. -/
def afterArrival (p : Prepare) : Option NetworkLink × String → Task Outcome
  | (l, name) =>
    match l.map Link.incoming with
    | none => .done (.linkFailed .idNotSet)
    | some (.error e) => .done (.linkFailed e)
    | some (.ok (id, .refusing refuser)) => .done (.replied (refusingReply refuser id p))
    | some (.ok (_, .account account)) =>
      .act (handing name account p) (afterReception name account p)

theorem arriveAt_eq : arriveAt link p
    = .act (fun n => ((n.link? link, n.ownerOf link), n)) (afterArrival p) := by
  refine congrArg (Flow.act _) (funext fun ⟨l, name⟩ => ?_)
  dsimp only [Flow.bind, afterArrival]
  generalize l.map Link.incoming = incoming
  rcases incoming with - | - | ⟨id, account | refuser⟩
  · rfl
  · rfl
  · refine congrArg (Flow.act (handing name account p)) (funext fun reception => ?_)
    rcases reception with ⟨reply, - | number | -⟩ | - <;> rfl
  · rfl

/-- The request that a receiver of an account has for its neighbour, and the link for it. -/
def asking (name : String) (account : AccountId) (serial : ℕ) (n : Network) :
    Option (Prepare × LinkRef) := do
  let m ← n.nodes.get? name
  let r ← m.broadcaster.receiver? account serial
  return (r.request.toPrepare (Receiver.requestExpiry n.now), r.link)

/-- How a task goes on that has sent a route message. -/
def afterRequest : Outcome → Task Outcome
  | .linkFailed e => .done (.routingFailed (.link e))
  | other => .done other

theorem requestFrom_eq (serial : ℕ) : requestFrom name account serial
    = .act (fun n => (asking name account serial n, n)) fun packet =>
      match packet with
      | none => .done .notRouting
      | some (p, link) => .call (.send link p) afterRequest := by
  refine congrArg (Flow.act _) (funext fun packet => ?_)
  rcases packet with - | ⟨p, link⟩
  · rfl
  · refine congrArg (Flow.call _) (funext fun o => ?_)
    cases o <;> rfl

end Procedure

namespace Scheduler

open Procedure (task afterReception)

variable {s : Scheduler Network Procedure Outcome} {id : ℕ} {link : LinkRef} {name : String}
  {account : AccountId} {m : Node} {p : Prepare}

/-- An errand is set going as a task of its own. -/
def setGoing (s : Scheduler Network Procedure Outcome) (name : String) (account : AccountId) :
    Option RouteErrand → Scheduler Network Procedure Outcome
  | none => s
  | some e => (s.add (task (e.procedure name account))).2

/-- A task sends one packet over a link, whatever becomes of it, and then ends. -/
def SendsOnce (s : Scheduler Network Procedure Outcome) (f : Task Outcome) (link : LinkRef)
    (p : Prepare) : Prop :=
  ∃ next : Outcome → Task Outcome, (∀ o, ∃ o', next o = .done o') ∧
    ∀ id, ∃ moves, Goes task moves (s, some (id, f)) (s, some (id, .call (.send link p) next))

/-- A node takes a packet in the two moves after it has come in. -/
theorem goes_arrive (h : s.state.Brings link name account m) :
    let taken := m.receive s.state.now account p
    Goes task 2 (s, some (id, task (.arrive link p)))
      ({ s with state := s.state.setNode name taken.2 },
        some (id, afterReception name account p taken.1)) := by
  intro taken
  obtain ⟨l, lid, hl, hincoming⟩ := h.handler
  have hlook : Goes task 1 (s, some (id, task (.arrive link p)))
      (s, some (id, Procedure.afterArrival p (s.state.link? link, s.state.ownerOf link))) := by
    rw [show task (.arrive link p) = _ from Procedure.arriveAt_eq]
    exact goes_act _ _
  have hfound : Procedure.afterArrival p (s.state.link? link, s.state.ownerOf link)
      = .act (Procedure.handing name account p) (afterReception name account p) := by
    rw [Procedure.afterArrival, hl, Option.map_some, hincoming, h.owner]
  have htaken : Procedure.handing name account p s.state
      = (taken.1, s.state.setNode name taken.2) := by
    rw [Procedure.handing, h.node]
  have htake : Goes task 1
      (s, some (id, .act (Procedure.handing name account p) (afterReception name account p)))
      ({ s with state := (Procedure.handing name account p s.state).2 },
        some (id, afterReception name account p (Procedure.handing name account p s.state).1)) :=
    goes_act _ _
  rw [htaken] at htake
  rw [hfound] at hlook
  exact hlook.trans htake

/-- An answer is given at once; what it sets going is left to a task of its own. -/
theorem goes_answer (reply : Reply) (errand : Option RouteErrand) :
    ∃ moves, Goes task moves (s, some (id, afterReception name account p (.answered reply errand)))
      (s.setGoing name account errand, some (id, .done (.replied reply))) := by
  cases errand with
  | none => exact ⟨0, fun _ => rfl⟩
  | some e => exact ⟨1, goes_spawn _ _⟩

/-- A receiver's request is sent over the link for which the receiver was made. -/
theorem sendsOnce_request {serial : ℕ} {r : Receiver} (hm : s.state.nodes.get? name = some m)
    (hr : m.broadcaster.receiver? account serial = some r) :
    SendsOnce s (task (.request name account serial)) r.link
      (r.request.toPrepare (Receiver.requestExpiry s.state.now)) := by
  have hasking : Procedure.asking name account serial s.state
      = some (r.request.toPrepare (Receiver.requestExpiry s.state.now), r.link) := by
    simp only [Procedure.asking, hm, hr, Option.bind_eq_bind, Option.bind_some]
    rfl
  refine ⟨Procedure.afterRequest, fun o => ?_, fun id => ⟨1, ?_⟩⟩
  · cases o <;> exact ⟨_, rfl⟩
  · rw [show task (.request name account serial) = _ from Procedure.requestFrom_eq serial]
    have hgo : Goes task 1 (s, some (id, .act (fun n => (Procedure.asking name account serial n, n))
        fun packet => match packet with
          | none => .done .notRouting
          | some (p, link) => .call (.send link p) Procedure.afterRequest)) _ := goes_act _ _
    rw [hasking] at hgo
    exact hgo

/-- A task that tells a neighbour about routes counts the epochs as told in the move that builds the
update, before the update is sent. -/
theorem goes_announce {serial : ℕ} {sender : Sender} (hm : s.state.nodes.get? name = some m)
    (hsender : m.broadcaster.sender? account serial = some sender) :
    let b := m.broadcaster
    let told := sender.nextUpdate b.table m.accounts b.settings m.operator
    Goes task 1 (s, some (id, task (.announce name account serial)))
      ({ s with state := s.state.setNode name { m with broadcaster := b.withAnySender told.2 } },
        some (id, .call
          (.send sender.link (told.1.toPrepare (Sender.updateExpiry b.settings s.state.now)))
          Procedure.afterRequest)) := by
  intro b told
  have hgo : Goes task 1 (s, some (id, task (.announce name account serial))) _ := goes_act _ _
  simp only [hm, hsender, Broadcaster.nextUpdate, Broadcaster.settings_withAnySender] at hgo
  exact hgo

end Scheduler

namespace Broadcaster

open Procedure (task)
open Scheduler (Goes SendsOnce)

variable {b : Broadcaster}

/-- What becomes of a packet that arrives on a link, in whatever state the exchange of routes is.

A route message that is refused leaves that state as it was, but for an update about another table
that starts too late.  Just the updates that start too late make the node ask anew, once and with
what the receiver then expects; the receiver that refused the update asks, over its own link, even if
its account has another one by then, or none.  A message that is fulfilled is so by the one answer,
and was taken by the sender or the receiver of the link's account.  Nothing touches other accounts'
senders and receivers, and the answer waits for nothing. -/
theorem reception_of_reached (hb : b.Reached) (operator : Option Address) (now : Instant)
    (account : AccountId) (p : Prepare) :
    let reception := (b.receive operator now account p).1
    let after := (b.receive operator now account p).2
    (∀ e errand, reception = .answered (.rejected e) errand →
      after = b ∨ ∃ r u, b.Late now account p r u ∧ r.tableId ≠ u.tableId) ∧
    (∀ r u, b.Late now account p r u →
      reception = .answered
        (.rejected (.byNode operator .badRequest (RoutingError.gap (gapOf r u)).message))
        (some (.request r.serial)) ∧
      (r.tableId = u.tableId → after = b) ∧
      (r.tableId ≠ u.tableId → Adopts r u.tableId b after) ∧
      (∃ r', after.receivers.get? account = some r' ∧ r'.toRegistration = r.toRegistration ∧
        r'.request = ⟨.sync, u.tableId, r.expects u, []⟩) ∧
      ∀ b', after.Becomes b' →
        ∃ r', b'.receiver? account r.serial = some r' ∧ r'.toRegistration = r.toRegistration) ∧
    (∀ reply serial, reception = .answered reply (some (.request serial)) →
      ∃ r u, b.Late now account p r u ∧ r.serial = serial) ∧
    (∀ f errand, reception = .answered (.fulfilled f) errand →
      f = routeResponse ∧ Handed b operator now account p errand after) ∧
    (reception = .switched ↔
      p.destination ≠ controlDestination ∧ p.destination ≠ updateDestination) ∧
    ((p.destination ≠ controlDestination → after.senders = b.senders) ∧
      (p.destination ≠ updateDestination →
        after.receivers = b.receivers ∧ after.table = b.table) ∧
      (reception = .switched → after = b)) ∧
    (∀ a, a ≠ account → after.senders.get? a = b.senders.get? a ∧
      after.receivers.get? a = b.receivers.get? a) ∧
    ∀ (s : Scheduler Network Procedure Outcome) (link : LinkRef) (name : String) (m : Node),
      s.state.Brings link name account m → m.broadcaster = b → m.operator = operator →
      s.state.now = now →
      let s' : Scheduler Network Procedure Outcome :=
        { s with state := s.state.setNode name { m with broadcaster := after } }
      (∀ reply errand, reception = .answered reply errand → ∀ id, ∃ moves,
        Goes task moves (s, some (id, task (.arrive link p)))
          (s'.setGoing name account errand, some (id, .done (.replied reply)))) ∧
      ∀ (t : Scheduler Network Procedure Outcome) (m' : Node) (serial : ℕ) (r' : Receiver),
        t.state.nodes.get? name = some m' →
        m'.broadcaster.receiver? account serial = some r' →
        SendsOnce t (task (.request name account serial)) r'.link
          (r'.request.toPrepare (Receiver.requestExpiry t.state.now)) := by
  obtain ⟨hsound, hsenders⟩ := hb.inv
  have hx := b.received operator now account p
  intro reception after
  have hpair : ∀ {c}, reception = c → Received b operator now account p (c, after) := by
    rintro c rfl
    exact hx
  refine ⟨fun e errand h => (hpair h).eq_or_late hsound, fun r u h => ?_,
    fun reply serial h => (hpair h).late_of_request,
    fun f errand h => (hpair h).handed hsound hsenders,
    hx.switched_iff, hx.frame, fun a ha => hx.frame_of_ne hsound hsenders ha, ?_⟩
  · have heq := hx.eq_of_late h
    have hafter : after = (b.update r operator u).2 := congrArg Prod.snd heq
    refine ⟨congrArg Prod.fst heq, fun hid => ?_, fun hid => ?_, ?_, fun b' hbecomes => ?_⟩
    · rw [hafter, update_eq_of_late hsound h.receiver h.late hid]
    · exact hafter ▸ adopts_of_late hsound h.receiver h.late hid
    · exact hafter ▸ request_of_late hsound h
    · exact receiver?_of_becomes hb h.receiver
        ((b.becomes_receive operator now account p).trans hbecomes)
  · rintro s link name m hbrings rfl rfl rfl s'
    refine ⟨fun reply errand h id => ?_, fun t m' serial r' hm hr =>
      Scheduler.sendsOnce_request hm hr⟩
    have htaken : (m.receive s.state.now account p).1 = .answered reply errand := h
    have harrive : Goes task 2 (s, some (id, task (.arrive link p))) _ :=
      Scheduler.goes_arrive hbrings
    rw [htaken] at harrive
    obtain ⟨moves, hanswer⟩ : ∃ moves, Goes task moves
        (s', some (id, Procedure.afterReception name account p (.answered reply errand)))
        (s'.setGoing name account errand, some (id, .done (.replied reply))) :=
      Scheduler.goes_answer reply errand
    exact ⟨moves + 2, harrive.trans hanswer⟩

namespace Comeback

/-- An update about a table of which the receiver has not heard, but not from its start on. -/
def lateUpdate : RouteUpdate :=
  { RouteUpdate.blank (.plain 0) with fromEpoch := 1, toEpoch := 1 }

def latePacket : Prepare := lateUpdate.toPrepare ⟨0⟩

/-- The node of the two neighbours, with a link to the near one. -/
def between : Node where
  operator := none
  configured := [near, far]
  accounts := .ofAccounts [near, far]
  sources := []
  broadcaster := bothOffered
  links := (∅ : Dict AccountId LinkRef).insert near.id ⟨0⟩

theorem broadcaster_between : between.broadcaster = bothOffered := by
  rw [between]

def nearLink : NetworkLink where
  settings := { type := .loopback }
  transport := .loopback none
  id := some (.ofAccount near.id)
  handler := some (.account near.id)

/-- Nothing has happened on the link yet. -/
def quiet : Scheduler Network Procedure Outcome where
  state := {
    now := ⟨0⟩
    nodes := (∅ : Dict String Node).insert "between" between
    links := [("between", nearLink)] }

theorem brings_near : quiet.state.Brings ⟨0⟩ "between" near.id between where
  owner := rfl
  handler := ⟨nearLink, _, rfl, rfl⟩
  node := Dict.get?_insert_self _ _ _

theorem reached_bothOffered : bothOffered.Reached := by
  have hrun := run_bothOffered
  generalize bothOffered = b at hrun ⊢
  induction hrun with
  | refl => exact .start _ _
  | tail _ hstep ih => exact .step ih hstep

theorem exists_late : ∃ r, bothOffered.Late ⟨0⟩ near.id latePacket r lateUpdate ∧
    r.tableId ≠ lateUpdate.tableId ∧ r.serial = 0 := by
  have hfound : (bothOffered.receivers.get? near.id).map (fun r => (r.tableId, r.serial))
      = some (.plain 3, 0) := by
    decide +kernel
  obtain ⟨r, hr, hfound⟩ := Option.map_eq_some_iff.mp hfound
  obtain ⟨hid, hserial⟩ := Prod.mk.inj hfound
  have hne : r.tableId ≠ lateUpdate.tableId := hid ▸ by decide
  refine ⟨r, ⟨rfl, by decide +kernel, hr, ?_⟩, hne, hserial⟩
  rw [Receiver.expects, if_neg hne]
  decide

/-- The exchange of routes after the packet. -/
def afterLate : Broadcaster := (bothOffered.receive none ⟨0⟩ near.id latePacket).2

/-- The packet is taken and not answered yet. -/
def taken : Scheduler Network Procedure Outcome :=
  { quiet with state := quiet.state.setNode "between" { between with broadcaster := afterLate } }

/-- The node when the neighbour has been removed. -/
def bereft : Node := { between with broadcaster := afterLate.remove near.id }

theorem broadcaster_bereft : bereft.broadcaster = afterLate.remove near.id := by
  rw [bereft]

def parted : Scheduler Network Procedure Outcome :=
  { quiet with state := quiet.state.setNode "between" bereft }

end Comeback

open Comeback

/-- The near neighbour starts over with an update that starts too late: its routes are gone, and it
is asked to tell from the start, even if it has been removed meanwhile. -/
theorem reception_of_reached_gap :
    bothOffered.Reached ∧
    ∃ r e moves, bothOffered.Late ⟨0⟩ near.id latePacket r lateUpdate ∧
      Adopts r lateUpdate.tableId bothOffered afterLate ∧
      Goes task moves (quiet, some (0, task (.arrive ⟨0⟩ latePacket)))
        (taken.setGoing "between" near.id (some (.request 0)),
          some (0, .done (.replied (.rejected e)))) ∧
      afterLate.Becomes (afterLate.remove near.id) ∧
      (afterLate.remove near.id).receivers.get? near.id = none ∧
      SendsOnce parted (task (.request "between" near.id 0)) ⟨0⟩
        (RouteControl.toPrepare ⟨.sync, lateUpdate.tableId, 0, []⟩
          (Receiver.requestExpiry ⟨0⟩)) := by
  obtain ⟨r, hlate, hid, hserial⟩ := exists_late
  obtain ⟨-, hgap, -, -, -, -, -, hlink⟩ :=
    reception_of_reached reached_bothOffered none ⟨0⟩ near.id latePacket
  obtain ⟨hrefused, -, hadopts, -, hfound⟩ := hgap r lateUpdate hlate
  obtain ⟨hgoes, hsends⟩ :=
    hlink quiet ⟨0⟩ "between" between brings_near broadcaster_between rfl rfl
  rw [hserial] at hrefused hfound
  obtain ⟨moves, hgo⟩ := hgoes _ _ hrefused 0
  have hbecomes : afterLate.Becomes (afterLate.remove near.id) := .single (.step (.remove near.id))
  obtain ⟨r', hr', -⟩ := hfound (afterLate.remove near.id) (by rwa [afterLate] at hbecomes)
  have hnone : (afterLate.remove near.id).receivers.get? near.id = none := by
    rw [receivers_remove]
    exact Dict.get?_erase_self _ _
  have hasks : ((afterLate.remove near.id).receiver? near.id 0).map (fun r => (r.link, r.request))
      = some (⟨0⟩, ⟨.sync, lateUpdate.tableId, 0, []⟩) := by
    decide +kernel
  rw [hr', Option.map_some, Option.some.injEq, Prod.mk.injEq] at hasks
  have hsent := hsends parted bereft 0 r' (Dict.get?_insert_self _ _ _) (broadcaster_bereft ▸ hr')
  rw [hasks.1, hasks.2] at hsent
  exact ⟨reached_bothOffered, r, _, moves, hlate, hadopts hid, hgo, hbecomes, hnone, hsent⟩

end Broadcaster

end IlpConnector
