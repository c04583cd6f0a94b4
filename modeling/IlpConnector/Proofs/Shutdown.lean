import IlpConnector.Proofs.Quiescence

/-!
# After a node has been taken down

A node that is taken down stops its broadcasts and disconnects its links, but its handlers and
senders stay.  No link comes up again by itself, and the senders rest, however packets arrive and
time passes (`Scheduler.idle_iff_after_takeDown`), up to the first request of a neighbour that
asks to be told routes again: this starts a broadcast although the link is down.
-/

namespace IlpConnector

open Procedure (task Since quiescence disconnectAll)

theorem Sender.broadcast_obey_ne_none {s : Sender} {table : TableId} {number : ℕ}
    {c : RouteControl} (hc : c.mode ≠ .idle) : (s.obey table number c).broadcast ≠ none := by
  unfold obey start
  cases hmode : c.mode with
  | idle => exact absurd hmode hc
  | sync =>
    dsimp only
    split_ifs with hrun
    · exact Option.isSome_iff_ne_none.mp hrun
    · exact Option.some_ne_none _

theorem Broadcaster.get?_senders_shutdown (b : Broadcaster) (a : AccountId) :
    b.shutdown.senders.get? a = (b.senders.get? a).map Sender.stop :=
  Dict.get?_mapValues _ _ _

/-! ## What may happen -/

/-- The sender of a node's account. -/
def Network.senderOf (n : Network) (name : String) (account : AccountId) : Option Sender :=
  (n.nodes.get? name).bind fun m => m.broadcaster.senders.get? account

/-- The clocks say something else, and neighbours and their hosts are going to behave in another
way. -/
def Network.Outside (n n' : Network) : Prop :=
  ∃ now reading peers exchange, n' = { n with now, reading, peers, exchange }

/-- Packets that may arrive. -/
def Procedure.Arrives (May : LinkRef → Prepare → Prop) (c : Procedure) : Prop :=
  ∃ link p, May link p ∧ c = .arrive link p

/-- What comes of it that some packets arrive, the clock changes, and neighbours behave as they
like. -/
def Scheduler.Later (May : LinkRef → Prepare → Prop) :
    Point Network Procedure Outcome → Point Network Procedure Outcome → Prop :=
  Relation.ReflTransGen (Step task (Procedure.Arrives May) Network.Outside)

/-- No task is ready, and those that wait are done with nodes and connect no link. -/
structure Scheduler.Calm (s : Scheduler Network Procedure Outcome) : Prop where
  ready : s.ready = []
  asleep : ∀ w ∈ s.asleep, w.turn.id < s.nextId ∧ ∀ e, Procedure.Calm (w.turn.next e)

namespace Procedure

variable {r : LinkRef} {p : Prepare} {node : String} {account : AccountId} {number : ℕ}

/-- The procedures that put no node into operation. -/
def Lasting : Procedure → Prop
  | bringUp _ => False
  | _ => True

/-- Once it waits, the task is calm. -/
abbrev Calms (f : Task Outcome) : Prop := f.Settles Network.Idles Ensues Lasting

theorem Ensues.lasting {c : Procedure} (h : c.Ensues) : c.Lasting := by
  cases c <;> trivial

theorem Calm.calms {f : Task Outcome} (h : Calm f) : Calms f :=
  h.settles fun _ => Ensues.lasting

theorem calms_carryPacket (operator : Option Address) (now : Instant) (t : Transport Wire) :
    Calms (carryPacket operator now p t) := by
  by_cases ht : ∃ node account, t = .other (.bridge node account)
  · obtain ⟨node, account, rfl⟩ := ht
    refine Flow.settles_read fun far => ?_
    split
    · trivial
    · exact ⟨trivial, fun _ => trivial⟩
  · exact (quiet_carryPacket operator now fun node account hout => ht ⟨node, account, hout⟩).calm.calms

theorem calms_send : Calms (task (.send r p)) := by
  refine Flow.settles_read fun (l, operator, now) => ?_
  dsimp only
  split
  · trivial
  · trivial
  · exact calms_carryPacket _ _ _

theorem calms_arrive : Calms (task (.arrive r p)) := by
  rw [show task (.arrive r p) = _ from arriveAt_eq]
  intro n
  change Calms (afterArrival p (n.link? r, n.ownerOf r))
  rw [afterArrival]
  split
  · trivial
  · trivial
  · trivial
  · intro n
    unfold afterReception
    split
    · exact ⟨trivial, fun _ => trivial⟩
    · trivial
    · rename_i errand _
      exact ⟨by cases errand <;> trivial, fun _ => trivial⟩

theorem calm_disconnectAll (node : String) (as : List AccountId) :
    Calm (disconnectAll node as) := by
  induction as with
  | nil => trivial
  | cons a as ih =>
    refine .bind (quiet_read _).calm fun r => ?_
    split
    · exact .bind (Flow.only_run trivial) fun _ => ih
    · exact ih

theorem calms_announce (serial : ℕ) : Calms (task (.announce node account serial)) := by
  refine Flow.settles_take fun packet => ?_
  split
  · trivial
  · exact ⟨trivial, fun o => by cases o <;> trivial⟩

theorem calms_broadcast : Calms (task (.broadcast node account number)) := by
  refine Flow.settles_read fun interval => ?_
  split
  · trivial
  · exact ⟨trivial, fun _ _ => ⟨trivial, fun _ => trivial⟩⟩

theorem calms_task (c : Procedure) (hc : c.Lasting) : Calms (task c) := by
  cases c with
  | turn call r => exact fun n => (quiet_goOn r 2 _).calm.calms
  | send => exact calms_send
  | arrive => exact calms_arrive
  | switch => exact quiet_switch.calm.calms
  | guarded node source p guards => exact (quiet_guarded source guards).calm.calms
  | bringUp => exact hc.elim
  | takeDown node =>
    refine Flow.settles_take fun as => Calm.calms ?_
    exact (calm_disconnectAll node as).bind fun _ => trivial
  | announce node account serial => exact calms_announce serial
  | request node account serial => exact (quiet_request serial).calm.calms
  | broadcast => exact calms_broadcast
  | pause => trivial

end Procedure

/-- Whenever no task is ready, those that wait are calm, as long as no node is put into
operation. -/
theorem Scheduler.Calm.steps {s s' : Scheduler Network Procedure Outcome} (hs : s.Calm)
    {Outside : Network → Network → Prop}
    (hsteps : Relation.ReflTransGen (Step task Procedure.Lasting Outside) (s, none) (s', none))
    (hready : s'.ready = []) : s'.Calm where
  ready := hready
  asleep := by
    have hstart : Settling Network.Idles Procedure.Ensues Procedure.Lasting (s, none) := by
      refine ⟨fun t ht => ?_, hs.asleep, nofun⟩
      rw [hs.ready] at ht
      cases ht
    exact (hstart.steps (fun _ => Procedure.Ensues.lasting) Procedure.calms_task hsteps).asleep

/-! ## Taking a node down -/

namespace Procedure

variable {start n : Network} {May : LinkRef → Prepare → Prop} {name : String} {m : Node}

/-- A node stops its broadcasts, and tells the accounts whose links are in operation. -/
def stopping (name : String) (n : Network) : List AccountId × Network :=
  match n.nodes.get? name with
  | none => ([], n)
  | some m => (m.links.keys, n.setNode name { m with broadcaster := m.broadcaster.shutdown })

theorem takeDown_eq : task (.takeDown name)
    = .act (stopping name) fun accounts => (disconnectAll name accounts).bind fun _ =>
      .done .finished := rfl

theorem Since.linkOf_eq (h : Since start May name m n) (account : AccountId) :
    n.linkOf name account = m.links.get? account := by
  obtain ⟨m', hm', hlinks, -⟩ := h.rests.node m h.silent.node h.silent.reached
  rw [Network.linkOf, hm', Option.bind_some, hlinks]

theorem meets_disconnectAll (h : Since start May name m n) (as : List AccountId) :
    (disconnectAll name as).Meets (quiescence start May name) n fun _ n =>
      ∀ a ∈ as, ∀ r, m.links.get? a = some r → n.isConnected r = false := by
  induction as generalizing n with
  | nil => exact fun _ _ _ ha => by cases ha
  | cons a as ih =>
    refine Flow.meets_read fun n' hn' => ?_
    have h' := h.mono hn'
    rw [h'.linkOf_eq]
    cases hlink : m.links.get? a with
    | none =>
      refine (ih h').imp fun _ n'' _ hdown => List.forall_mem_cons.mpr ⟨?_, hdown⟩
      intro r hr
      cases hlink.symm.trans hr
    | some r =>
      refine Flow.meets_run trivial fun o n'' hn'' hr => ?_
      refine (ih (h'.mono hn'')).imp fun _ n₃ hn₃ hdown => List.forall_mem_cons.mpr ⟨?_, hdown⟩
      intro r' hr'
      obtain rfl := Option.some.inj (hlink.symm.trans hr')
      exact hn₃.lowers.isConnected_eq_false hr

/-- A silent node's sender for an account, if it has one, rests. -/
theorem Since.senderOf_cases (h : Since start May name m n) (account : AccountId) :
    (m.broadcaster.senders.get? account = none → n.senderOf name account = none) ∧
      ∀ s, m.broadcaster.senders.get? account = some s →
        ∃ s', n.senderOf name account = some s' ∧
          (RouteControl.Idle (start.Requested May name account) →
            s.Noted m.table.id (start.Requested May name account) s') := by
  obtain ⟨m', hm', -, hrests⟩ := h.rests.node m h.silent.node h.silent.reached
  have hsender : n.senderOf name account = m'.broadcaster.senders.get? account := by
    rw [Network.senderOf, hm', Option.bind_some]
  rw [hsender]
  refine ⟨hrests.absent account, fun s hs => ?_⟩
  obtain ⟨s', hs', hnoted⟩ := hrests.sender account s hs
  exact ⟨s', hs', hnoted (h.silent.stopped account s hs)⟩

/-- A node that has stopped its broadcasts is silent. -/
theorem silent_stopping (hapart : n.Apart) (hm : n.nodes.get? name = some m)
    (hb : m.broadcaster.Reached) :
    (stopping name n).2.Silent name { m with broadcaster := m.broadcaster.shutdown } := by
  unfold stopping
  rw [hm]
  refine ⟨hapart, Dict.get?_insert_self _ _ _, hb.change .shutdown, fun a s hs => ?_⟩
  rw [Broadcaster.get?_senders_shutdown, Option.map_eq_some_iff] at hs
  obtain ⟨t, -, rfl⟩ := hs
  rfl

theorem requested_stopping (hm : n.nodes.get? name = some m) :
    (stopping name n).2.Requested May name = n.Requested May name := by
  unfold stopping
  rw [hm]
  rfl

end Procedure

namespace Scheduler

open Procedure

variable {s : Scheduler Network Procedure Outcome} {May : LinkRef → Prepare → Prop}
  {name : String} {m : Node} {y : Point Network Procedure Outcome}

/-- What is expected of the main task that takes a node down: in the end the node's links are
down. -/
def LinksDown (main : ℕ) (m : Node) (id : ℕ) (_ : Outcome) (n : Network) : Prop :=
  id = main → ∀ a r, m.links.get? a = some r → n.isConnected r = false

theorem linksDown_stable {main : ℕ} {Requested : AccountId → RouteControl → Prop} (id : ℕ)
    (o : Outcome) {n n' : Network} (h : n.Rests name Requested n')
    (hdown : LinksDown main m id o n) :
    LinksDown main m id o n' :=
  fun hid a r hr => h.lowers.isConnected_eq_false (hdown hid a r hr)

section TakeDown

variable (hs : s.Calm) (hapart : s.state.Apart) (hm : s.state.nodes.get? name = some m)
  (hb : m.broadcaster.Reached)

include hs hapart hm hb

theorem upholds_takeDown (May : LinkRef → Prepare → Prop) :
    Upholds (quiescence (stopping name s.state).2 May name) (LinksDown s.nextId m)
      ((perform task (.takeDown name) s).2, none) ∧
    ∀ o, (perform task (.takeDown name) s).1 = some (.finished o) →
      LinksDown s.nextId m s.nextId o (perform task (.takeDown name) s).2.state := by
  have hsilent := silent_stopping hapart hm hb
  refine Upholds.perform (honored_quiescence hsilent) linksDown_stable hs.ready takeDown_eq
    ⟨.of_eq rfl rfl, fun t ht e => ?_, fun t ht => ?_, nofun, fun id hid o x h => ?_⟩
  · obtain ⟨w, hw, rfl⟩ := (mem_pending.mp ht).resolve_left (List.not_mem_nil)
    obtain ⟨hid, hcalm⟩ := hs.asleep w hw
    exact (hcalm e).meets (fun _ _ => linksDown_stable _ (.finished))
      fun h => absurd h (Nat.ne_of_lt hid)
  · obtain rfl := Option.some.inj ht
    have hlinks : (stopping name s.state).1 = m.links.keys := by
      unfold stopping
      rw [hm]
    refine Flow.meets_bind (meets_disconnectAll ⟨hsilent, .of_eq rfl rfl⟩ _) fun _ n _ hdown => ?_
    refine fun n' hn' _ a r hr => hn'.lowers.isConnected_eq_false (hdown a ?_ r hr)
    rw [hlinks]
    exact Dict.mem_keys.mpr ⟨r, hr⟩
  · have hid : s.nextId + 1 ≤ id := hid
    omega

/-- Whatever may happen once a node has been taken down, its exchange of routes rests and links at
most go down. -/
theorem since_takeDown (May : LinkRef → Prepare → Prop)
    (hy : Later May ((perform task (.takeDown name) s).2, none) y) :
    Since (stopping name s.state).2 May name { m with broadcaster := m.broadcaster.shutdown }
        y.1.state ∧
      (perform task (.takeDown name) s).2.state.Lowers y.1.state := by
  have hsilent := silent_stopping hapart hm hb
  obtain ⟨hend, hrests⟩ := (upholds_takeDown hs hapart hm hb May).1.steps
    (honored_quiescence hsilent) linksDown_stable (by rintro _ ⟨link, p, hmay, rfl⟩; exact hmay)
    (by rintro n _ ⟨now, reading, peers, exchange, rfl⟩; exact .of_eq rfl rfl) hy
  exact ⟨⟨hsilent, hend.state⟩, hrests.lowers⟩

end TakeDown

/-! ## A neighbour that asks to be told routes again -/

section Asking

variable {n : Network} {link : LinkRef} {account : AccountId} {p : Prepare} {c : RouteControl}
  {sender : Sender}

/-- A request that arrives is obeyed. -/
theorem senderOf_handing {t : Sender} (hm : n.nodes.get? name = some m) (hb : m.broadcaster.Reached)
    (ht : m.broadcaster.senders.get? account = some t) (hp : p.destination = controlDestination)
    (hc : RouteControl.ofPrepare n.now p = .ok c) :
    (handing name account p n).2.senderOf name account
      = some (t.obey m.broadcaster.table.id m.broadcaster.nextBroadcast c) := by
  have hobey : (m.broadcaster.receive m.operator n.now account p).2
      = (m.broadcaster.obey t c).2 := by
    simp only [Broadcaster.receive, Broadcaster.receiveControl, if_pos hp, hc, ht]
  have hpeer := (t.peer_obey m.broadcaster.table.id m.broadcaster.nextBroadcast c).trans
    (hb.inv.2 account t ht).1
  unfold handing Network.senderOf
  rw [hm]
  dsimp only
  rw [Network.get?_nodes_setNode, if_pos rfl, Option.bind_some]
  change (m.broadcaster.receive m.operator n.now account p).2.senders.get? account = _
  rw [hobey]
  change (m.broadcaster.senders.insert _ (t.obey _ _ c)).get? account = _
  rw [hpeer, Dict.get?_insert_self]

/-- A neighbour that may ask to be told routes can have a broadcast started, also over a link that
is down. -/
theorem exists_later_broadcast {start : Network} (h : Since start May name m s.state)
    (hs : m.broadcaster.senders.get? account = some sender)
    (hc : start.Requested May name account c) (hsync : c.mode ≠ .idle) :
    ∃ y, Later May (s, none) y ∧
      ∃ t, y.1.state.senderOf name account = some t ∧ t.broadcast ≠ none := by
  obtain ⟨link, p, now, hmay, hserves, hp, hc⟩ := hc
  obtain ⟨howner, l, id, hl, hin⟩ := h.rests.lowers.serves_iff.mpr hserves
  obtain ⟨m', hm', -, hrests⟩ := h.rests.node m h.silent.node h.silent.reached
  obtain ⟨t, ht, -⟩ := hrests.sender account sender hs
  let n : Network := { s.state with now }
  have hafter : afterArrival p (n.link? link, n.ownerOf link)
      = .act (handing name account p) (afterReception name account p) := by
    change afterArrival p (s.state.link? link, s.state.ownerOf link) = _
    rw [afterArrival, hl, howner, Option.map_some, hin]
  -- The clock is set, the packet arrives and gets its turn, and the node takes it.
  let f := task (.arrive link p)
  let s' : Scheduler Network Procedure Outcome :=
    { s with state := n, nextId := s.nextId + 1, ready := s.ready ++ [] }
  let t' : Turn Network Procedure Outcome := .free s.nextId f
  have harrive : Later May (s, none) ({ s' with ready := s.ready ++ [t'] }, none) :=
    .tail (.single (.outside ⟨now, s.state.reading, s.state.peers, s.state.exchange, rfl⟩))
      (.start ⟨link, p, hmay, rfl⟩)
  have hturn : ({ s' with ready := s.ready ++ [t'] } : Scheduler _ _ _).ready
      = s.ready ++ t' :: [] := rfl
  have hpick : Later May (s, none) (s', some (s.nextId, f)) := harrive.tail (.pick hturn)
  rw [show f = _ from arriveAt_eq] at hpick
  have hlook : Later May (s, none)
      (s', some (s.nextId, afterArrival p (n.link? link, n.ownerOf link))) := hpick.tail .move
  rw [hafter] at hlook
  refine ⟨_, hlook.tail .move, _, senderOf_handing hm' hrests.reached ht hp hc, ?_⟩
  exact Sender.broadcast_obey_ne_none hsync

end Asking

/-! ## An update that is still to be told -/

/-- A task that is about to tell a neighbour about routes when the node is taken down does so all the
same, and the epoch of the sender goes on, although its broadcast has been stopped. -/
theorem goes_announce_after_takeDown {t : Sender} {account : AccountId} {id : ℕ}
    (hm : s.state.nodes.get? name = some m) (hb : m.broadcaster.Reached)
    (ht : m.broadcaster.senders.get? account = some t) :
    let told := t.stop.nextUpdate m.broadcaster.table m.accounts m.broadcaster.settings m.operator
    let expiry := Sender.updateExpiry m.broadcaster.settings s.state.now
    ∃ n, Goes task 1
        ({ s with state := (stopping name s.state).2 },
          some (id, task (.announce name account t.serial)))
        ({ s with state := n },
          some (id, .call (.send t.link (told.1.toPrepare expiry)) Procedure.afterRequest)) ∧
      n.senderOf name account = some told.2 := by
  intro told expiry
  let b := m.broadcaster.shutdown
  have hstopped : b.senders.get? account = some t.stop := by
    rw [Broadcaster.get?_senders_shutdown, ht, Option.map_some]
  have hpeer : t.peer = account := (hb.inv.2 account t ht).1
  have hnode : (stopping name s.state).2.nodes.get? name = some { m with broadcaster := b } := by
    rw [stopping, hm]
    exact Dict.get?_insert_self _ _ _
  have hnow : (stopping name s.state).2.now = s.state.now := by
    rw [stopping, hm]
    rfl
  have hgo : Goes task 1 (_, some (id, _)) _ :=
    goes_announce (s := { s with state := (stopping name s.state).2 }) hnode
      (Broadcaster.sender?_of_get? hstopped hpeer)
  dsimp only at hgo
  rw [hnow] at hgo
  have hplace : b.withAnySender told.2 = b.withSender told.2 :=
    Broadcaster.withAnySender_of_get? hstopped hpeer rfl
  refine ⟨_, hgo, ?_⟩
  rw [Network.senderOf, Network.get?_nodes_setNode, if_pos rfl, Option.bind_some]
  change (b.withAnySender told.2).senders.get? account = some told.2
  rw [hplace, Broadcaster.withSender, show told.2.peer = account from hpeer]
  exact Dict.get?_insert_self _ _ _

/-! ## The node stays down -/

/-- What lasts once a node has been taken down, however packets arrive and time passes.  Before that
anything may have gone on, as long as no node was being put into operation.  No task is ready just
then: one that was about to tell a neighbour about routes would still do so
(`goes_announce_after_takeDown`).

All the node's links are down when that is done, and no link comes up again.  No account gets a
sender.  A sender whose neighbour asks for no routes does not broadcast, and its epoch is the one
that it had, or that the last request has set.  But a neighbour that may ask for routes can have a
broadcast started again. -/
theorem idle_iff_after_takeDown {s₀ : Scheduler Network Procedure Outcome} (hs₀ : s₀.Calm)
    (hrun : Relation.ReflTransGen (Step task Lasting fun _ _ => True) (s₀, none) (s, none))
    (hready : s.ready = []) (hapart : s.state.Apart) (hm : s.state.nodes.get? name = some m)
    (hb : m.broadcaster.Reached) (May : LinkRef → Prepare → Prop) :
    let (ending, s') := perform task (.takeDown name) s
    (∀ o, ending = some (.finished o) →
      ∀ a r, m.links.get? a = some r → s'.state.isConnected r = false) ∧
    (∀ y, Later May (s', none) y →
      (∀ r, s'.state.isConnected r = false → y.1.state.isConnected r = false) ∧
      (∀ a, m.broadcaster.senders.get? a = none → y.1.state.senderOf name a = none) ∧
      ∀ a t, m.broadcaster.senders.get? a = some t →
        RouteControl.Idle (s.state.Requested May name a) →
        ∃ t', y.1.state.senderOf name a = some t' ∧
          t.stop.Noted m.table.id (s.state.Requested May name a) t') ∧
    ∀ a t, m.broadcaster.senders.get? a = some t →
      (RouteControl.Idle (s.state.Requested May name a) ↔
        ∀ y, Later May (s', none) y →
          ∀ t', y.1.state.senderOf name a = some t' → t'.broadcast = none) := by
  have hs : s.Calm := hs₀.steps hrun hready
  have hended := (upholds_takeDown hs hapart hm hb May).2
  have hlater := fun {y} => since_takeDown (y := y) hs hapart hm hb May
  rw [← requested_stopping hm]
  generalize perform task (.takeDown name) s = x at hended hlater ⊢
  obtain ⟨ending, s'⟩ := x
  have hstopped : ∀ {a t}, m.broadcaster.senders.get? a = some t →
      m.broadcaster.shutdown.senders.get? a = some t.stop := fun ht => by
    rw [Broadcaster.get?_senders_shutdown, ht, Option.map_some]
  refine ⟨fun o ho => hended o ho rfl, fun y hy => ⟨fun r hr => ?_, fun a ha => ?_, ?_⟩, ?_⟩
  · exact (hlater hy).2.isConnected_eq_false hr
  · refine ((hlater hy).1.senderOf_cases a).1 ?_
    rw [Broadcaster.get?_senders_shutdown, ha, Option.map_none]
  · intro a t ht hidle
    obtain ⟨t', ht', hnoted⟩ := ((hlater hy).1.senderOf_cases a).2 t.stop (hstopped ht)
    exact ⟨t', ht', hnoted hidle⟩
  · refine fun a t ht => ⟨fun hidle y hy t₁ ht₁ => ?_, fun hnone c hc => ?_⟩
    · obtain ⟨t', ht', hnoted⟩ := ((hlater hy).1.senderOf_cases a).2 t.stop (hstopped ht)
      obtain rfl := Option.some.inj (ht'.symm.trans ht₁)
      exact (hnoted hidle).broadcast_eq
    · by_contra hmode
      obtain ⟨y, hy, t', ht', hrun⟩ :=
        exists_later_broadcast (hlater .refl).1 (hstopped ht) hc hmode
      exact hrun (hnone y hy t' ht')

open Broadcaster.Comeback

namespace Parting

/-- The link of the near neighbour is up. -/
def upLink : NetworkLink := { nearLink with connected := true }

def standing : Scheduler Network Procedure Outcome where
  state := { quiet.state with links := [("between", upLink)] }

/-- The near neighbour asks to be told routes, or no longer. -/
def asking (mode : RouteMode) : Prepare :=
  RouteControl.toPrepare ⟨mode, .plain 3, 0, []⟩ ⟨1000000⟩

/-- The near neighbour asks for one thing only. -/
def Asks (mode : RouteMode) (link : LinkRef) (p : Prepare) : Prop :=
  link = ⟨0⟩ ∧ p = asking mode

theorem calm_standing : standing.Calm := ⟨rfl, by simp [standing]⟩

theorem apart_standing : standing.state.Apart := by
  intro r l hl node account
  obtain ⟨e, he, rfl⟩ := Option.map_eq_some_iff.mp hl
  obtain rfl := List.mem_singleton.mp (List.mem_of_getElem? he)
  simp [upLink, nearLink]

theorem node_standing : standing.state.nodes.get? "between" = some between :=
  Dict.get?_insert_self _ _ _

theorem reached_between : between.broadcaster.Reached :=
  broadcaster_between ▸ reached_bothOffered

theorem exists_sender_near : ∃ t, between.broadcaster.senders.get? near.id = some t := by
  rw [broadcaster_between, ← Option.isSome_iff_exists]
  decide +kernel

theorem idle_asking :
    RouteControl.Idle (standing.state.Requested (Asks .idle) "between" near.id) := by
  rintro c ⟨link, p, now, ⟨rfl, rfl⟩, -, -, hc⟩
  have hparsed : RouteControl.ofPrepareAnyTime (asking .idle) = .ok ⟨.idle, .plain 3, 0, []⟩ := by
    decide +kernel
  rw [RouteControl.ofPrepare, hparsed] at hc
  cases hexpiry : checkExpiry now (asking .idle) with
  | error e =>
    rw [hexpiry] at hc
    cases hc
  | ok =>
    rw [hexpiry] at hc
    obtain rfl := Except.ok.inj hc
    rfl

/-- Taking the node down comes to its end. -/
theorem perform_standing :
    (perform task (.takeDown "between") standing).1 = some (.finished .finished) := by
  have hgoes : ∃ n, Goes task 6
      (within 0 standing.state 0 1 [] [], some (0, task (.takeDown "between")))
      (within 0 n 0 1 [] [], some (0, .done .finished)) := ⟨_, fun _ => rfl⟩
  obtain ⟨n, hn⟩ := hgoes
  have hperform : perform task (.takeDown "between") standing = _ :=
    perform_eq rfl rfl hn (by decide) (by simp)
  rw [hperform]

end Parting

open Parting

/-- While the near neighbour only asks not to be told, it is not told. -/
theorem idle_iff_after_takeDown_standing :
    standing.Calm ∧ standing.ready = [] ∧ standing.state.Apart ∧
    standing.state.nodes.get? "between" = some between ∧ between.broadcaster.Reached ∧
    ∃ s', perform task (.takeDown "between") standing = (some (.finished .finished), s') ∧
      s'.state.isConnected ⟨0⟩ = false ∧
      ∀ y, Later (Asks .idle) (s', none) y → y.1.state.isConnected ⟨0⟩ = false ∧
        ∃ t, y.1.state.senderOf "between" near.id = some t ∧ t.broadcast = none := by
  refine ⟨calm_standing, rfl, apart_standing, node_standing, reached_between, ?_⟩
  obtain ⟨t, ht⟩ := exists_sender_near
  have hdown := idle_iff_after_takeDown calm_standing .refl rfl apart_standing node_standing
    reached_between (Asks .idle)
  have hend := perform_standing
  generalize perform task (.takeDown "between") standing = x at hdown hend ⊢
  obtain ⟨ending, s'⟩ := x
  obtain rfl : ending = _ := hend
  obtain ⟨hlinks, hlater, -⟩ := hdown
  have hlink : s'.state.isConnected ⟨0⟩ = false :=
    hlinks _ rfl near.id _ (Dict.get?_insert_self _ _ _)
  refine ⟨s', rfl, hlink, fun y hy => ?_⟩
  obtain ⟨hstay, -, hsender⟩ := hlater y hy
  obtain ⟨t', ht', hnoted⟩ := hsender near.id t ht idle_asking
  exact ⟨hstay _ hlink, t', ht', hnoted.broadcast_eq⟩

/-- After the node has been taken down, the near neighbour asks to be told, and a broadcast starts
over the link that is down. -/
theorem broadcasts_after_takeDown :
    ∃ s' y t, perform task (.takeDown "between") standing = (some (.finished .finished), s') ∧
      Later (Asks .sync) (s', none) y ∧ y.1.state.isConnected ⟨0⟩ = false ∧
      y.1.state.senderOf "between" near.id = some t ∧ t.broadcast ≠ none := by
  obtain ⟨t, ht⟩ := exists_sender_near
  have hlater := fun {y} => since_takeDown (y := y) calm_standing apart_standing node_standing
    reached_between (Asks .sync)
  have hlinks := (upholds_takeDown calm_standing apart_standing node_standing reached_between
    (Asks .sync)).2 _ perform_standing rfl near.id ⟨0⟩ (Dict.get?_insert_self _ _ _)
  have hrequested : (stopping "between" standing.state).2.Requested (Asks .sync) "between" near.id
      ⟨.sync, .plain 3, 0, []⟩ := by
    rw [requested_stopping node_standing]
    exact ⟨⟨0⟩, asking .sync, ⟨0⟩, ⟨rfl, rfl⟩, ⟨rfl, upLink, _, rfl, rfl⟩, rfl, by decide +kernel⟩
  have hstopped : between.broadcaster.shutdown.senders.get? near.id = some t.stop := by
    rw [Broadcaster.get?_senders_shutdown, ht, Option.map_some]
  obtain ⟨y, hy, t', ht', hrun⟩ :=
    exists_later_broadcast (hlater .refl).1 hstopped hrequested (by decide)
  exact ⟨_, y, t', Prod.ext perform_standing rfl, hy, (hlater hy).2.isConnected_eq_false hlinks,
    ht', hrun⟩

end Scheduler

end IlpConnector
