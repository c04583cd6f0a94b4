import IlpConnector.Ccp.Inbox
import IlpConnector.Proofs.BestRoute

/-!
# What becomes of a packet from a neighbour

A packet has one of five ends (`Broadcaster.Received`): it is for the packet switch, it is refused
and nothing else happens, its request is obeyed, its update is applied, or its update starts too
late for the receiver (`Broadcaster.Late`).
-/

namespace IlpConnector

/-! ## Updates that start too late -/

/-- The epoch from which an update would have to start at the latest: nothing is known of a table
that the receiver has not been told about. -/
def Receiver.expects (r : Receiver) (u : RouteUpdate) : UInt32 :=
  if r.tableId = u.tableId then r.epoch else 0

theorem Receiver.epoch_opened (r : Receiver) (table : ForwardingTable) (u : RouteUpdate) :
    (r.opened table u).receiver.epoch = r.expects u := by
  unfold opened expects
  split_ifs <;> rfl

/-- An update ends with a gap just if it starts too late, and then it is only looked at. -/
theorem Receiver.apply_of_lt {r : Receiver} {u : RouteUpdate} (h : r.expects u < u.fromEpoch)
    (table : ForwardingTable) (own : Option Address) : r.apply table own u =
      (r.opened table u, .error ⟨u.tableId, r.expects u, u.fromEpoch⟩) := by
  rw [← r.epoch_opened table] at h
  rcases r.apply_cases table own u with ⟨-, heq⟩ | ⟨hle, -⟩ | ⟨hle, -⟩ | ⟨hle, -⟩
  · rw [heq, r.epoch_opened, tableId_opened]
  all_goals exact absurd h (UInt32.not_lt.mpr hle)

theorem Receiver.exists_apply_eq_ok {r : Receiver} {u : RouteUpdate}
    (h : ¬ r.expects u < u.fromEpoch) (table : ForwardingTable) (own : Option Address) :
    ∃ ps, (r.apply table own u).2 = .ok ps := by
  rw [← r.epoch_opened table] at h
  rcases r.apply_cases table own u with ⟨hlt, -⟩ | ⟨-, -, heq⟩ | ⟨-, -, -, heq⟩ | ⟨-, -, -, heq⟩
  · exact absurd hlt h
  all_goals exact ⟨_, by rw [heq]⟩

namespace Broadcaster

variable {b : Broadcaster} {r : Receiver} {own operator : Option Address} {u : RouteUpdate}
  {now : Instant} {a account : AccountId} {p : Prepare} {id : TableId}

/-- A packet brings an update that starts too late for the receiver of its account. -/
structure Late (b : Broadcaster) (now : Instant) (account : AccountId) (p : Prepare) (r : Receiver)
    (u : RouteUpdate) : Prop where
  destination : p.destination = updateDestination
  parsed : RouteUpdate.ofPrepare now p = .ok u
  receiver : b.receivers.get? account = some r
  late : r.expects u < u.fromEpoch

/-- What an update that starts too late is refused for. -/
def gapOf (r : Receiver) (u : RouteUpdate) : EpochGap := ⟨u.tableId, r.expects u, u.fromEpoch⟩

/-- An update is refused just if it starts too late. -/
theorem update_fst_eq_error_iff {g : EpochGap} :
    (b.update r own u).1 = .error g ↔ r.expects u < u.fromEpoch ∧ gapOf r u = g := by
  by_cases hlate : r.expects u < u.fromEpoch
  · have hlearn : (b.learn r own u).1 = .error (gapOf r u) :=
      congrArg Prod.snd (Receiver.apply_of_lt hlate b.table own)
    rw [update_of_learn_error hlearn]
    simp [hlate]
  · obtain ⟨changed, happly⟩ := Receiver.exists_apply_eq_ok hlate b.table own
    have hlearn : (b.learn r own u).1 = .ok changed := happly
    rw [update_of_learn_ok hlearn]
    simp [hlate]

/-! ## The ends of a packet -/

theorem control_ne_update : controlDestination ≠ updateDestination := by decide +kernel

theorem Late.unique {r' : Receiver} {u' : RouteUpdate} (h : b.Late now account p r u)
    (h' : b.Late now account p r' u') : r = r' ∧ u = u' :=
  ⟨Option.some.inj (h.receiver.symm.trans h'.receiver),
    Except.ok.inj (h.parsed.symm.trans h'.parsed)⟩

/-- What may become of a packet, and of the exchange of routes. -/
inductive Received (b : Broadcaster) (operator : Option Address) (now : Instant)
    (account : AccountId) (p : Prepare) : Reception × Broadcaster → Prop where
  | switched (hc : p.destination ≠ controlDestination) (hu : p.destination ≠ updateDestination) :
      Received b operator now account p (.switched, b)
  | refused (e : RoutingError)
      (hp : p.destination = controlDestination ∨ p.destination = updateDestination)
      (hnone : ∀ u r, RouteUpdate.ofPrepare now p = .ok u → b.receivers.get? account = some r →
        p.destination ≠ updateDestination) :
      Received b operator now account p
        (.answered (.rejected (.byNode operator .badRequest e.message)) none, b)
  | obeyed {c : RouteControl} {s : Sender} (hp : p.destination = controlDestination)
      (hc : RouteControl.ofPrepare now p = .ok c) (hs : b.senders.get? account = some s) :
      Received b operator now account p
        (.answered (.fulfilled routeResponse) ((b.obey s c).1.map .broadcast), (b.obey s c).2)
  | updated {u : RouteUpdate} {r : Receiver} {changed : List AddressPrefix} {b' : Broadcaster}
      (hp : p.destination = updateDestination) (hu : RouteUpdate.ofPrepare now p = .ok u)
      (hr : b.receivers.get? account = some r) (h : b.update r operator u = (.ok changed, b')) :
      Received b operator now account p (.answered (.fulfilled routeResponse) none, b')
  | late {u : RouteUpdate} {r : Receiver} {b' : Broadcaster} (hlate : b.Late now account p r u)
      (h : b.update r operator u = (.error (gapOf r u), b')) :
      Received b operator now account p
        (.answered (.rejected (.byNode operator .badRequest (RoutingError.gap (gapOf r u)).message))
          (some (.request r.serial)), b')

theorem received_control (hp : p.destination = controlDestination) :
    Received b operator now account p (b.receiveControl operator now account p) := by
  have hne : p.destination ≠ updateDestination := hp ▸ control_ne_update
  unfold receiveControl
  split
  · exact .refused _ (Or.inl hp) fun _ _ _ _ => hne
  · rename_i c hc
    split
    · exact .refused _ (Or.inl hp) fun _ _ _ _ => hne
    · rename_i s hs
      exact .obeyed hp hc hs

theorem received_update (hp : p.destination = updateDestination) :
    Received b operator now account p (b.receiveUpdate operator now account p) := by
  unfold receiveUpdate
  split
  · rename_i e he
    refine .refused _ (Or.inr hp) fun u r hu _ => ?_
    rw [hu] at he
    cases he
  · rename_i u hu
    split
    · rename_i hnone
      refine .refused _ (Or.inr hp) fun u r _ hr => ?_
      rw [hr] at hnone
      cases hnone
    · rename_i r hr
      split
      · rename_i changed b' hupdate
        exact .updated hp hu hr hupdate
      · rename_i g b' hupdate
        obtain ⟨hlate, rfl⟩ := update_fst_eq_error_iff.mp (congrArg Prod.fst hupdate)
        exact .late ⟨hp, hu, hr, hlate⟩ hupdate

theorem received (b : Broadcaster) (operator : Option Address) (now : Instant)
    (account : AccountId) (p : Prepare) :
    Received b operator now account p (b.receive operator now account p) := by
  unfold receive
  split_ifs with hc hu
  · exact received_control hc
  · exact received_update hu
  · exact .switched hc hu

namespace Received

variable {x : Reception × Broadcaster}

theorem eq_of_late (hx : Received b operator now account p x) (h : b.Late now account p r u) :
    x = (.answered (.rejected (.byNode operator .badRequest (RoutingError.gap (gapOf r u)).message))
      (some (.request r.serial)), (b.update r operator u).2) := by
  have hfst : (b.update r operator u).1 = .error (gapOf r u) :=
    update_fst_eq_error_iff.mpr ⟨h.late, rfl⟩
  cases hx with
  | switched hc hu => exact absurd h.destination hu
  | refused e hp hnone => exact absurd h.destination (hnone u r h.parsed h.receiver)
  | obeyed hp hc hs => exact absurd (hp.symm.trans h.destination) control_ne_update
  | updated hp hu hr hok =>
    obtain rfl := Option.some.inj (hr.symm.trans h.receiver)
    obtain rfl := Except.ok.inj (hu.symm.trans h.parsed)
    rw [hok] at hfst
    cases hfst
  | late h' herror =>
    obtain ⟨rfl, rfl⟩ := h.unique h'
    rw [herror]

theorem late_of_request {reply : Reply} {serial : ℕ} {b' : Broadcaster}
    (h : Received b operator now account p (.answered reply (some (.request serial)), b')) :
    ∃ r u, b.Late now account p r u ∧ r.serial = serial := by
  generalize hx : (Reception.answered reply (some (.request serial)), b') = x at h
  cases h with
  | switched | refused | updated => cases hx
  | obeyed hp hc hs =>
    obtain ⟨hreception, -⟩ := Prod.mk.inj hx
    obtain ⟨-, herrand⟩ := Reception.answered.inj hreception
    obtain ⟨number, -, hnumber⟩ := Option.map_eq_some_iff.mp herrand.symm
    cases hnumber
  | late h =>
    obtain ⟨hreception, -⟩ := Prod.mk.inj hx
    obtain ⟨-, herrand⟩ := Reception.answered.inj hreception
    exact ⟨_, _, h, RouteErrand.request.inj (Option.some.inj herrand).symm⟩

theorem switched_iff (h : Received b operator now account p x) :
    x.1 = .switched ↔
      p.destination ≠ controlDestination ∧ p.destination ≠ updateDestination := by
  cases h with
  | switched hc hu => exact ⟨fun _ => ⟨hc, hu⟩, fun _ => rfl⟩
  | refused e hp =>
    refine ⟨nofun, fun ⟨hc, hu⟩ => ?_⟩
    exact absurd hp (not_or.mpr ⟨hc, hu⟩)
  | obeyed hp => exact ⟨nofun, fun h => absurd hp h.1⟩
  | updated hp => exact ⟨nofun, fun h => absurd hp h.2⟩
  | late h => exact ⟨nofun, fun hne => absurd h.destination hne.2⟩

end Received

/-- A packet leaves the routes alone, or is an update for the receiver of its account. -/
theorem receive_cases (b : Broadcaster) (operator : Option Address) (now : Instant) (a : AccountId)
    (p : Prepare) :
    ((b.receive operator now a p).2.table = b.table ∧
        (b.receive operator now a p).2.receivers = b.receivers ∧
        (b.receive operator now a p).2.settings = b.settings) ∨
      ∃ u r, RouteUpdate.ofPrepare now p = .ok u ∧ b.receivers.get? a = some r ∧
        (b.receive operator now a p).2 = (b.update r operator u).2 := by
  have hx := b.received operator now a p
  generalize b.receive operator now a p = x at hx ⊢
  cases hx with
  | switched | refused | obeyed => exact Or.inl ⟨rfl, rfl, rfl⟩
  | updated hp hu hr h => exact Or.inr ⟨_, _, hu, hr, by rw [h]⟩
  | late hlate h => exact Or.inr ⟨_, _, hlate.parsed, hlate.receiver, by rw [h]⟩

theorem receive_of_update (hp : p.destination = updateDestination)
    (hu : RouteUpdate.ofPrepare now p = .ok u) (hr : b.receivers.get? a = some r) :
    (b.receive operator now a p).2 = (b.update r operator u).2 := by
  have hx := b.received operator now a p
  generalize b.receive operator now a p = x at hx ⊢
  cases hx with
  | switched hc hne => exact absurd hp hne
  | refused e _ hnone => exact absurd hp (hnone u r hu hr)
  | obeyed hp' => exact absurd (hp'.symm.trans hp) control_ne_update
  | updated _ hu' hr' h =>
    obtain rfl := Except.ok.inj (hu.symm.trans hu')
    obtain rfl := Option.some.inj (hr.symm.trans hr')
    rw [h]
  | late hlate h =>
    obtain rfl := Except.ok.inj (hu.symm.trans hlate.parsed)
    obtain rfl := Option.some.inj (hr.symm.trans hlate.receiver)
    rw [h]

end Broadcaster

end IlpConnector
