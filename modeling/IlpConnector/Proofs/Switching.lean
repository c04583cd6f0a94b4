import IlpConnector.Proofs.Dict
import IlpConnector.Proofs.Scheduling
import IlpConnector.Proofs.Screening
import IlpConnector.Simulation.Procedures
import Mathlib.Order.Bounds.Basic

/-!
# What the switch does with a packet

With the usual filters, a packet that fails a check is refused at once, and the forwarder hears
nothing of it.  Any other packet goes to the forwarder once, as it is, and the answer is settled
(`Scheduler.perform_switch`): one that comes in time goes back unless it is a fulfillment of another
condition, and without one the packet times out.

Time goes by in whole milliseconds, so a packet times out at the first of them at which its time is
up (`Procedure.isLeast_toMillis`).  An answer that comes at just that one is in time.
-/

namespace IlpConnector

/-! ## Guards at work -/

namespace Procedure

/-- A packet enters a node's switch, which tells its address and what has become of the packet. -/
def entering (node : String) (account : AccountId) (p : Prepare) (net : Network) :
    (Option Address × Option (AccountSettings × Entry)) × Network :=
  match net.nodes.get? node with
  | some m =>
    let (entered, m) := m.enter net.now net.reading account p
    let net := net.setNode node m
    match entered with
    | some (_, e) => ((m.operator, entered), { net with probed := net.probed ++ e.probes })
    | none => ((m.operator, entered), net)
  | none => ((none, none), net)

/-- How a task goes on with a packet that has entered the switch. -/
def afterEntry (node : String) (account : AccountId) (p : Prepare) :
    Option Address × Option (AccountSettings × Entry) → Task Outcome
  | (operator, none) => .done (.replied (.rejected (PacketSwitch.unknownSource operator account)))
  | (_, some (source, e)) =>
    match e.refusal with
    | some r => .done (.replied (.rejected r))
    | none => .call (.guarded node source p e.guards) .done

/-- How a task goes on that waits for a packet's answer until a deadline. -/
def afterDeadline (node : String) : Option (Ending Outcome) → Task Outcome
  | some (.finished o) => .done o
  | some (.crashed m) => .crash m
  | none => .act (fun n => (n.operatorOf node, n)) fun operator =>
    .done (.replied (Guard.timedOut operator))

/-- How a task goes on that compares a packet's answer with a condition. -/
def afterAnswer (node : String) (hash : Octets 32) : Outcome → Task Outcome
  | .replied r => .act (fun n => (n.operatorOf node, n)) fun operator =>
    .done (.replied (Guard.review operator (.condition hash) r))
  | other => .done other

theorem switchPacket_eq {node : String} {account : AccountId} {p : Prepare} :
    switchPacket node account p = .act (entering node account p) (afterEntry node account p) := by
  refine congrArg (Flow.act (entering node account p)) (funext fun ⟨operator, entered⟩ => ?_)
  rcases entered with - | ⟨source, guards, - | r, limiters, probes⟩ <;> rfl

theorem isLeast_toMillis (p : Prepare) (now : Instant) :
    IsLeast {d : ℕ | p.expiresAt ≤ now.addMillis d}
      (toMillis (p.expiresAt.nanos - now.nanos).toNat) := by
  have hup : ∀ d : ℕ, p.expiresAt ≤ now.addMillis d ↔
      p.expiresAt.nanos ≤ now.nanos + d * 1000000 := fun _ => Iff.rfl
  unfold toMillis
  refine ⟨(hup _).mpr ?_, fun d hd => ?_⟩
  · omega
  · have h := (hup d).mp hd
    omega

/-- The procedures, with another way to send a packet on that has passed a node's guards. -/
def withForwarder (forward : String → AccountSettings → Prepare → Task Outcome) :
    Procedure → Task Outcome
  | guarded node source p [] => forward node source p
  | c => c.task

theorem withForwarder_forwardPacket : withForwarder forwardPacket = task := by
  funext c
  unfold withForwarder
  split <;> rfl

end Procedure

/-- A forwarder answers after some milliseconds, or never, and does to the network what it likes. -/
def Forwarder := AccountSettings → Prepare → Network → Option (Nat × Reply) × Network

namespace Forwarder

/-- How a task goes on with the answer of a forwarder. -/
def answering : Option (Nat × Reply) → Task Outcome
  | none => .stall
  | some (0, r) => .done (.replied r)
  | some (delay, r) => .sleep delay fun _ => .done (.replied r)

def forward (fw : Forwarder) (_node : String) (source : AccountSettings) (p : Prepare) :
    Task Outcome :=
  .act (fw source p) answering

end Forwarder

namespace PacketSwitch

/-- What the switch makes of a forwarder's answer to a packet with so many milliseconds left, and
when. -/
inductive Settled (p : Prepare) (limit : Nat) : Option (Nat × Reply) → Nat → Reply → Prop where
  | rejected {delay : Nat} (r : Reject) : delay ≤ limit →
    Settled p limit (some (delay, .rejected r)) delay (.rejected r)
  | fulfilled {delay : Nat} (f : Fulfill) : delay ≤ limit →
    Sha256.digest f.fulfillment.toList = p.condition →
    Settled p limit (some (delay, .fulfilled f)) delay (.fulfilled f)
  | mismatched {delay : Nat} {r : Reject} (f : Fulfill) : delay ≤ limit →
    Sha256.digest f.fulfillment.toList ≠ p.condition → r.code = .invalidPeerResponse →
    Settled p limit (some (delay, .fulfilled f)) delay (.rejected r)
  | late {delay : Nat} {r : Reject} (answer : Reply) : limit < delay →
    r.code = .transferTimedOut → Settled p limit (some (delay, answer)) limit (.rejected r)
  | silent {r : Reject} : r.code = .transferTimedOut → Settled p limit none limit (.rejected r)

theorem settled_review {p : Prepare} {limit delay : Nat} (operator : Option Address) (r : Reply)
    (h : delay ≤ limit) : Settled p limit (some (delay, r)) delay
      (Guard.review operator (.condition p.condition) r) := by
  cases r with
  | rejected r => exact .rejected r h
  | fulfilled f =>
    by_cases hash : Sha256.digest f.fulfillment.toList = p.condition
    · simp only [Guard.review, if_pos hash]
      exact .fulfilled f h hash
    · simp only [Guard.review, if_neg hash]
      exact .mismatched f h hash rfl

end PacketSwitch

namespace Scheduler

open Procedure PacketSwitch

variable {fw : Forwarder} {node : String} {account : AccountId} {source : AccountSettings}
  {p : Prepare} {net : Network} {m : Node} {id clock nextId : Nat}

/-- A packet behind a deadline and a condition gets to the forwarder, while the main task waits for
its answer.  That the tasks go on as `afterDeadline` and `afterAnswer` say is so by definition. -/
theorem goes_guarded {nanos : Nat} {hash : Octets 32} :
    Goes (withForwarder fw.forward) 5
      (within id net clock nextId [] [],
        some (id, .call (.guarded node source p [.deadline nanos, .condition hash]) .done))
      (within id net clock (nextId + 1) []
        [⟨⟨id, some nextId, afterDeadline node⟩, some (clock + toMillis nanos)⟩],
        some (nextId, (fw.forward node source p).bind (afterAnswer node hash))) :=
  (goes_run _).trans ((goes_beside _).trans (goes_call _ _))

section Answering

variable {t limit : Nat} {ready : List (Turn Network Procedure Outcome)}
  {asleep : List (Sleeper Network Procedure Outcome)} {program : Procedure → Task Outcome}

theorem goes_review {hash : Octets 32} (r : Reply) {deadline : Option Nat} (hne : t ≠ id)
    (h : Waits ⟨⟨id, some t, afterDeadline node⟩, deadline⟩ ready asleep) :
    Goes program 3
      (within id net clock nextId ready asleep, some (t, afterAnswer node hash (.replied r)))
      (within id net clock nextId [] [], some (id,
        .done (.replied (Guard.review (net.operatorOf node) (.condition hash) r)))) :=
  (goes_act _ _).trans (goes_hear _ hne h)

theorem goes_timedOut
    (hlate : ∀ v ∈ asleep, ∃ time, v.deadline = some time ∧ clock + limit < time) :
    Goes program 3
      (within id net clock nextId []
        (⟨⟨id, some t, afterDeadline node⟩, some (clock + limit)⟩ :: asleep), none)
      (within id net (clock + limit) nextId [] asleep, some (id,
        .done (.replied (Guard.timedOut (net.operatorOf node))))) :=
  (goes_timeout hlate).trans (goes_act _ _)

/-- The answer to a packet that the forwarder has is settled. -/
theorem goes_settled (fw : Forwarder) (node : String) (source : AccountSettings) (p : Prepare)
    (net : Network) (clock nextId limit : Nat) (hne : t ≠ id) :
    ∃ moves after reply asleep, moves ≤ 7 ∧ Settled p limit (fw source p net).1 after reply ∧
      (∀ w ∈ asleep, w.turn.awaited ≠ some id) ∧
      Goes (withForwarder fw.forward) moves
        (within id net clock nextId []
          [⟨⟨id, some t, afterDeadline node⟩, some (clock + limit)⟩],
          some (t, (fw.forward node source p).bind (afterAnswer node p.condition)))
        (within id (fw source p net).2 (clock + after) nextId [] asleep,
          some (id, .done (.replied reply))) := by
  have hact : Goes (withForwarder fw.forward) 1
      (within id net clock nextId [] [⟨⟨id, some t, afterDeadline node⟩, some (clock + limit)⟩],
        some (t, (fw.forward node source p).bind (afterAnswer node p.condition)))
      (within id (fw source p net).2 clock nextId []
        [⟨⟨id, some t, afterDeadline node⟩, some (clock + limit)⟩],
        some (t, (Forwarder.answering (fw source p net).1).bind (afterAnswer node p.condition))) :=
    goes_actWithin _ _
  generalize (fw source p net).1 = answer at hact ⊢
  -- There is no answer, or one at once, or one after a while.
  rcases answer with - | ⟨- | delay, r⟩
  · exact ⟨5, limit, _, [], by decide, .silent rfl, by simp,
      hact.trans (goes_stall.trans (goes_timedOut (by simp)))⟩
  · exact ⟨4, 0, _, [], by decide, settled_review _ r (Nat.zero_le _), by simp,
      hact.trans (goes_review r hne .asleep)⟩
  · have hsleep := hact.trans (goes_sleep (delay + 1) _)
    by_cases hdelay : delay + 1 ≤ limit
    · obtain ⟨ready, asleep, hwaits, hwake⟩ :=
        goes_wake (afterAnswer node p.condition (.replied r)) hne hdelay
      exact ⟨7, delay + 1, _, [], by decide, settled_review _ r hdelay, by simp,
        hsleep.trans (hwake.trans (goes_review r hne hwaits))⟩
    · -- The forwarder still sleeps when the packet times out.
      have hlate := Nat.lt_of_not_le hdelay
      exact ⟨5, limit, _, [⟨.free t (afterAnswer node p.condition (.replied r)),
          some (clock + (delay + 1))⟩], by decide, .late r hlate rfl, by simp [Turn.free],
        hsleep.trans (goes_timedOut (by simpa using hlate))⟩

end Answering

section Contract

variable {s : Scheduler Network Procedure Outcome}

theorem enter_unknown (h : m.accounts.get? account = none) (now : Instant) (reading : ℕ) :
    m.enter now reading account p = (none, m) := by
  rw [Node.enter, h]

/-- With the usual filters, a packet of an account is either refused or gets two guards. -/
theorem enter_known (hfilters : m.filters = Filter.usual)
    (h : m.accounts.get? account = some source) (now : Instant) (reading : ℕ) :
    ∃ e, m.enter now reading account p = (some (source, e), { m with limiters := e.limiters }) ∧
      Decided source p e
        (firstFailure (m.governor.admits reading (m.limiters.tail.headD ∅)) (some source) now p)
        [.deadline (p.expiresAt.nanos - now.nanos).toNat, .condition p.condition] := by
  refine ⟨PacketSwitch.enter m.governor reading m.operator now source p m.filters m.limiters, ?_,
    ?_⟩
  · rw [Node.enter, h]
  · rw [hfilters]
    exact decided_usual m.governor reading m.operator now source p m.limiters

theorem entering_eq (hm : net.nodes.get? node = some m) (hfilters : m.filters = Filter.usual) :
    entering node account p net = ((m.operator, (m.enter net.now net.reading account p).1),
      net.setNode node (m.enter net.now net.reading account p).2) := by
  simp only [entering, hm]
  cases h : m.accounts.get? account with
  | none => simp only [enter_unknown h]
  | some source =>
    obtain ⟨e, henter, hdecided⟩ := enter_known (p := p) hfilters h net.now net.reading
    simp only [henter, hdecided.unprobed, List.append_nil]

theorem goes_enter {program : Procedure → Task Outcome} (hm : net.nodes.get? node = some m)
    (hfilters : m.filters = Filter.usual) :
    Goes program 1 (within id net clock nextId [] [], some (id, switchPacket node account p))
      (within id (net.setNode node (m.enter net.now net.reading account p).2) clock nextId [] [],
        some (id, afterEntry node account p
          (m.operator, (m.enter net.now net.reading account p).1))) := by
  have hgo : Goes program 1
      (within id net clock nextId [] [], some (id, switchPacket node account p))
      (within id (entering node account p net).2 clock nextId [] [],
        some (id, afterEntry node account p (entering node account p net).1)) := by
    rw [switchPacket_eq]
    exact goes_actWithin _ _
  rwa [entering_eq hm hfilters] at hgo

theorem perform_refused (fw : Forwarder) {code : ErrorCode} (hready : s.ready = [])
    (hasleep : s.asleep = []) (hm : s.state.nodes.get? node = some m)
    (hfilters : m.filters = Filter.usual)
    (hcode : firstFailure (m.governor.admits s.state.reading (m.limiters.tail.headD ∅))
      (m.accounts.get? account) s.state.now p = some code) :
    ∃ r, RefusedFor (m.accounts.get? account) p code r ∧
      perform (withForwarder fw.forward) (.switch node account p) s
        = (some (.finished (.replied (.rejected r))), {
            state := s.state.setNode node (m.enter s.state.now s.state.reading account p).2
            clock := s.clock
            nextId := s.nextId + 1 }) := by
  have henter : Goes (withForwarder fw.forward) 1
      (within s.nextId s.state s.clock (s.nextId + 1) [] [],
        some (s.nextId, switchPacket node account p)) _ := goes_enter hm hfilters
  suffices h : ∃ r, RefusedFor (m.accounts.get? account) p code r ∧
      afterEntry node account p (m.operator, (m.enter s.state.now s.state.reading account p).1)
        = .done (.replied (.rejected r)) by
    obtain ⟨r, hr, hafter⟩ := h
    rw [hafter] at henter
    exact ⟨r, hr, perform_eq hready hasleep henter (by decide) (by simp)⟩
  cases h : m.accounts.get? account with
  | none =>
    rw [h] at hcode
    rw [enter_unknown h]
    cases hcode
    exact ⟨_, .plain (by decide) rfl, rfl⟩
  | some source =>
    obtain ⟨e, he, hdecided⟩ := enter_known (p := p) hfilters h s.state.now s.state.reading
    rw [h] at hcode
    obtain ⟨r, hrefusal, hr⟩ := hdecided.refused code hcode
    rw [he]
    exact ⟨r, hr, by simp only [afterEntry, hrefusal]⟩

theorem perform_passed (fw : Forwarder) (hready : s.ready = []) (hasleep : s.asleep = [])
    (hm : s.state.nodes.get? node = some m) (hfilters : m.filters = Filter.usual)
    (h : m.accounts.get? account = some source)
    (hpass : firstFailure (m.governor.admits s.state.reading (m.limiters.tail.headD ∅))
      (m.accounts.get? account) s.state.now p = none) :
    let sent := fw source p (s.state.setNode node (m.enter s.state.now s.state.reading account p).2)
    ∃ after reply nextId asleep,
      Settled p (toMillis (p.expiresAt.nanos - s.state.now.nanos).toNat) sent.1 after reply ∧
      perform (withForwarder fw.forward) (.switch node account p) s
        = (some (.finished (.replied reply)),
          { state := sent.2, clock := s.clock + after, nextId, asleep }) := by
  intro sent
  have henter : Goes (withForwarder fw.forward) 1
      (within s.nextId s.state s.clock (s.nextId + 1) [] [],
        some (s.nextId, switchPacket node account p)) _ := goes_enter hm hfilters
  obtain ⟨e, he, hdecided⟩ := enter_known (p := p) hfilters h s.state.now s.state.reading
  obtain ⟨hrefusal, hguards⟩ := hdecided.passed (h ▸ hpass)
  have hafter : afterEntry node account p
      (m.operator, (m.enter s.state.now s.state.reading account p).1)
      = .call (.guarded node source p [.deadline (p.expiresAt.nanos - s.state.now.nanos).toNat,
          .condition p.condition]) .done := by
    rw [he, afterEntry, hrefusal, hguards]
  rw [hafter] at henter
  obtain ⟨moves, after, reply, asleep, hmoves, hsettled, hfree, hgo⟩ :=
    goes_settled fw node source p
      (s.state.setNode node (m.enter s.state.now s.state.reading account p).2)
      s.clock (s.nextId + 2) (toMillis (p.expiresAt.nanos - s.state.now.nanos).toNat)
      (Nat.succ_ne_self s.nextId)
  exact ⟨after, reply, _, asleep, hsettled, perform_eq hready hasleep
    (henter.trans (goes_guarded.trans hgo)) (by rw [moveLimit]; omega) hfree⟩

end Contract

/-- What the switch does with a packet while nothing else goes on, whatever limiters it has and
whatever makes them.  A packet that fails a check is refused for the first one it fails, and any
other packet goes to the forwarder, with the settings of its account, and the answer is settled. -/
theorem perform_switch (fw : Forwarder) (s : Scheduler Network Procedure Outcome)
    (hready : s.ready = []) (hasleep : s.asleep = []) (hm : s.state.nodes.get? node = some m)
    (hfilters : m.filters = Filter.usual) (account : AccountId) (p : Prepare) :
    let found := m.accounts.get? account
    let admits := m.governor.admits s.state.reading (m.limiters.tail.headD ∅)
    let failure := firstFailure admits found s.state.now p
    let entered := s.state.setNode node (m.enter s.state.now s.state.reading account p).2
    let (ending, s') := perform (withForwarder fw.forward) (.switch node account p) s
    (failure = none ↔ ∃ source, found = some source ∧ MayPass admits source s.state.now p) ∧
    (∀ code, failure = some code → s'.state = entered ∧ s'.clock = s.clock ∧
      ∃ r, ending = some (.finished (.replied (.rejected r))) ∧ RefusedFor found p code r) ∧
    ∀ source, found = some source → failure = none → s'.state = (fw source p entered).2 ∧
      ∃ limit after reply, IsLeast {d : ℕ | p.expiresAt ≤ s.state.now.addMillis d} limit ∧
        Settled p limit (fw source p entered).1 after reply ∧ s'.clock = s.clock + after ∧
        ending = some (.finished (.replied reply)) := by
  intro found admits failure entered
  cases hfailure : failure with
  | some code =>
    obtain ⟨r, hr, hperform⟩ := perform_refused fw hready hasleep hm hfilters hfailure
    rw [hperform]
    refine ⟨hfailure ▸ firstFailure_eq_none_iff, ?_, nofun⟩
    rintro _ ⟨⟩
    exact ⟨rfl, rfl, r, rfl, hr⟩
  | none =>
    obtain ⟨source, h, hmay⟩ := firstFailure_eq_none_iff.mp hfailure
    obtain ⟨after, reply, _, _, hsettled, hperform⟩ :=
      perform_passed fw hready hasleep hm hfilters h hfailure
    rw [hperform]
    refine ⟨⟨fun _ => ⟨source, h, hmay⟩, fun _ => rfl⟩, nofun, ?_⟩
    rintro source' h' -
    obtain rfl : source = source' := Option.some.inj (h.symm.trans h')
    exact ⟨rfl, _, after, reply, isLeast_toMillis p s.state.now, hsettled, rfl, rfl⟩

namespace Toll

/-- Its packets may carry little, and only one of them passes. -/
def payer : AccountSettings :=
  { AccountSettings.plain ⟨"payer", by decide +kernel⟩ .child .loopback with
    maximumPacketAmount := some 500, maxPacketsPerSecond := some 1 }

def gate : Node where
  operator := none
  configured := [payer]
  accounts := .ofAccounts [payer]
  sources := []
  broadcaster := { settings := {}, table := .fresh ⟨Octets.replicate 16 0⟩ }

/-- A packet with five milliseconds left. -/
def packet : Prepare :=
  ⟨500, .ofMillis 5, Octets.replicate 32 0, ⟨"example.b", by decide +kernel⟩, []⟩

def refusal : Reject := ⟨.unreachable, none, [], []⟩

/-- A forwarder that refuses everything after three milliseconds, and counts the packets. -/
def counting : Forwarder := fun _ _ net =>
  (some (3, .rejected refusal), { net with idsGiven := net.idsGiven + 1 })

def quiet : Scheduler Network Procedure Outcome where
  state := { now := .ofMillis 0, nodes := (∅ : Dict String Node).insert "gate" gate }

theorem mayPass_packet : MayPass (Governor.bucket.admits 0 ∅) payer (.ofMillis 0) packet where
  inTime := by decide
  admitted limit h := by
    cases h
    decide +kernel
  notTooLarge maximum h := by
    cases h
    decide

end Toll

open Toll

/-- A packet with the largest amount there may be, when no other one may pass after it. -/
theorem perform_switch_largest :
    quiet.ready = [] ∧ quiet.asleep = [] ∧ quiet.state.nodes.get? "gate" = some gate ∧
      gate.filters = Filter.usual ∧
      let (ending, s') := perform (withForwarder counting.forward) (.switch "gate" payer.id packet)
        quiet
      ending = some (.finished (.replied (.rejected refusal))) ∧ s'.clock = 3 ∧
        s'.state.idsGiven = 1 := by
  have hgate : quiet.state.nodes.get? "gate" = some gate := Dict.get?_insert_self _ _ _
  have hfound : gate.accounts.get? payer.id = some payer := by decide +kernel
  have hswitch := perform_switch counting quiet rfl rfl hgate rfl payer.id packet
  refine ⟨rfl, rfl, hgate, rfl, ?_⟩
  generalize perform (withForwarder counting.forward) (.switch "gate" payer.id packet) quiet
    = result at hswitch ⊢
  obtain ⟨ending, s'⟩ := result
  obtain ⟨hiff, -, hforwarded⟩ := hswitch
  obtain ⟨hstate, limit, after, reply, hlimit, hsettled, hclock, hending⟩ :=
    hforwarded payer hfound (hiff.mpr ⟨payer, hfound, mayPass_packet⟩)
  cases hsettled with
  | rejected => exact ⟨hending, hclock, congrArg Network.idsGiven hstate⟩
  | late answer hlate =>
    have hup : (5 * 1000000 : Int) ≤ 0 * 1000000 + limit * 1000000 := hlimit.1
    omega

end Scheduler

end IlpConnector
