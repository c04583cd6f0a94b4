import IlpConnector.Proofs.Succession

/-!
# What a route message leaves behind

A message that is refused leaves the exchange of routes as it was, with one exception: an update
about another table that starts too late makes its receiver turn to that table all the same
(`Broadcaster.Adopts`).  A message that is fulfilled was taken by the sender or the receiver of the
account it came from (`Broadcaster.Handed`), and no message touches those of other accounts
(`Broadcaster.Received.frame_of_ne`).
-/

namespace IlpConnector

/-! ## Which prefixes an operation touches -/

namespace ForwardingTable

variable {Q Q' : AddressPrefix → Prop} {t t' t'' : ForwardingTable}

/-- A table after further changes, all of them to prefixes with a property. -/
structure Touches (Q : AddressPrefix → Prop) (t t' : ForwardingTable) : Prop where
  id : t'.id = t.id
  log : ∃ more, t'.log = t.log ++ more ∧ ∀ c ∈ more, Q c.target
  entry : ∀ p, ¬ Q p → t'.get? p = t.get? p

theorem Touches.refl (Q : AddressPrefix → Prop) (t : ForwardingTable) : Touches Q t t where
  id := rfl
  log := ⟨[], (List.append_nil _).symm, fun _ hc => absurd hc List.not_mem_nil⟩
  entry _ _ := rfl

theorem Touches.trans (h : Touches Q t t') (h' : Touches Q t' t'') : Touches Q t t'' where
  id := h'.id.trans h.id
  log := by
    obtain ⟨xs, hxs, hQ⟩ := h.log
    obtain ⟨ys, hys, hQ'⟩ := h'.log
    refine ⟨xs ++ ys, by rw [hys, hxs, List.append_assoc], fun c hc => ?_⟩
    rcases List.mem_append.mp hc with hc | hc
    · exact hQ c hc
    · exact hQ' c hc
  entry p hp := (h'.entry p hp).trans (h.entry p hp)

theorem Touches.mono (h : Touches Q t t') (hQ : ∀ p, Q p → Q' p) : Touches Q' t t' where
  id := h.id
  log := by
    obtain ⟨more, hlog, hmore⟩ := h.log
    exact ⟨more, hlog, fun c hc => hQ _ (hmore c hc)⟩
  entry p hp := h.entry p fun hp' => hp (hQ p hp')

theorem touches_set (t : ForwardingTable) {r : Route} (hr : Q r.target) :
    Touches Q t (t.set r).2 := by
  refine ⟨?_, ?_, fun p hp => ?_⟩
  · unfold set
    split_ifs <;> rfl
  · unfold set
    split_ifs
    · exact (Touches.refl Q t).log
    · refine ⟨_, rfl, fun c hc => ?_⟩
      rw [List.mem_singleton] at hc
      exact hc ▸ hr
  · rw [get?_set, if_neg]
    rintro rfl
    exact hp hr

theorem touches_withdraw (t : ForwardingTable) {q : AddressPrefix} (hq : Q q) :
    Touches Q t (t.withdraw q).2 := by
  refine ⟨?_, ?_, fun p hp => ?_⟩
  · unfold withdraw
    split <;> rfl
  · unfold withdraw
    split
    · exact (Touches.refl Q t).log
    · refine ⟨_, rfl, fun c hc => ?_⟩
      rw [List.mem_singleton] at hc
      exact hc ▸ hq
  · rw [get?_withdraw, if_neg]
    rintro rfl
    exact hp hq

theorem touches_withdrawAll (t : ForwardingTable) {qs : List AddressPrefix} (hqs : ∀ q ∈ qs, Q q) :
    Touches Q t (t.withdrawAll qs) := by
  unfold withdrawAll
  induction qs generalizing t with
  | nil => exact .refl Q t
  | cons q qs ih =>
    rw [List.forall_mem_cons] at hqs
    exact (touches_withdraw t hqs.1).trans (ih _ hqs.2)

end ForwardingTable

open ForwardingTable (Touches)

namespace Broadcaster

variable {b : Broadcaster} {r : Receiver} {own operator : Option Address} {u : RouteUpdate}
  {now : Instant} {a account : AccountId} {p : Prepare}

theorem touches_selectOne (hb : b.Sound) (q : AddressPrefix) :
    Touches (· = q) b.table (b.selectOne q).2.table := by
  unfold selectOne
  split_ifs
  · exact .refl _ _
  · split
    · rename_i x hbest
      obtain ⟨a, ha⟩ := mem_learnedRoutes.mp (mem_of_bestRoute hbest)
      exact ForwardingTable.touches_set _ (ha.sound hb).1
    · exact ForwardingTable.touches_withdraw _ rfl

theorem touches_select (hb : b.Sound) (qs : List AddressPrefix) :
    Touches (· ∈ qs) b.table (b.select qs).2.table := by
  induction qs generalizing b with
  | nil => exact .refl _ _
  | cons q qs ih =>
    have hone : Touches (· ∈ q :: qs) b.table (b.selectOne q).2.table :=
      (touches_selectOne hb q).mono fun p hp => hp ▸ List.mem_cons_self
    exact hone.trans ((ih (sound_selectOne hb q)).mono fun p hp => List.mem_cons_of_mem q hp)

/-! ## What is left of an update that starts too late -/

/-- A receiver turns to another table of its neighbour.  Whatever led to the neighbour is gone, and
what the receiver had learned may lead elsewhere from then on; all else is as before. -/
structure Adopts (r : Receiver) (id : TableId) (b b' : Broadcaster) : Prop where
  settings : b'.settings = b.settings
  senders : b'.senders = b.senders
  formerSenders : b'.formerSenders = b.formerSenders
  formerReceivers : b'.formerReceivers = b.formerReceivers
  nextBroadcast : b'.nextBroadcast = b.nextBroadcast
  nextSerial : b'.nextSerial = b.nextSerial
  receivers : b'.receivers
    = b.receivers.insert r.peer { r with tableId := id, epoch := 0, learned := ∅ }
  table : Touches (fun q => (∃ x, r.learned.get? q = some x) ∨
    ∃ e, b.table.get? q = some e ∧ e.nextHop = r.peer) b.table b'.table
  gone : ∀ q e, b'.table.get? q = some e → e.nextHop ≠ r.peer

theorem adopts_of_late (hb : b.Sound) (hr : b.receivers.get? a = some r)
    (hlate : r.expects u < u.fromEpoch) (hid : r.tableId ≠ u.tableId) :
    Adopts r u.tableId b (b.update r own u).2 := by
  have hopened : (r.apply b.table own u).1
      = { receiver := r, table := b.table : Learning }.adopt u.tableId := by
    rw [Receiver.apply_of_lt hlate]
    exact if_neg hid
  have hsound : (b.learn r own u).2.Sound := sound_learn hb hr
  have hlearn : (b.learn r own u).2.table = (b.table.withdrawVia r.peer).2 := by
    rw [table_learn, hopened]
    rfl
  rw [update_snd, hopened, show dropped r u = r.learned.keys from if_neg hid]
  refine ⟨settings_select _ _, senders_select _ _, ?_, ?_, nextBroadcast_select _ _, ?_, ?_, ?_,
    fun q e he hhop => ?_⟩
  · rw [select_snd]
    rfl
  · rw [select_snd]
    rfl
  · rw [select_snd]
    rfl
  · rw [receivers_select, receivers_learn, hopened]
    rfl
  · have hselect := touches_select hsound (ordered (r.learned.keys ++ []))
    rw [hlearn] at hselect
    refine (ForwardingTable.touches_withdrawAll _ fun q hq => ?_).trans
      (hselect.mono fun q hq => ?_)
    · exact Or.inr ((ForwardingTable.mem_targetsVia _).mp hq)
    · rw [List.append_nil, mem_ordered] at hq
      exact Or.inl (Dict.mem_keys.mp hq)
  · rcases learned_of_get?_select hsound _ he with h | h
    · rw [hlearn, ForwardingTable.get?_withdrawVia] at h
      exact h.2 hhop
    · rw [hhop, learned_learn_self, hopened] at h
      cases h

/-- An update that starts too late for a table that the receiver knows changes nothing. -/
theorem update_eq_of_late (hb : b.Sound) (hr : b.receivers.get? a = some r)
    (hlate : r.expects u < u.fromEpoch) (hid : r.tableId = u.tableId) :
    (b.update r own u).2 = b := by
  have hopened : (r.apply b.table own u).1 = { receiver := r, table := b.table } := by
    rw [Receiver.apply_of_lt hlate]
    exact if_pos hid
  have hinsert : b.receivers.insert r.peer r = b.receivers := by
    rw [(hb a r hr).1]
    exact Dict.insert_of_get?_eq_some hr
  have hlearn : (b.learn r own u).2 = b := by
    change { b with
      table := (r.apply b.table own u).1.table
      receivers := b.receivers.insert r.peer (r.apply b.table own u).1.receiver } = b
    rw [hopened]
    dsimp only
    rw [hinsert]
  rw [update_snd, hopened, hlearn, show dropped r u = [] from if_pos hid]
  rfl

/-- A receiver that has refused an update asks for the table that the update was about, from the
epoch on that it expected. -/
theorem request_of_late (hb : b.Sound) (h : b.Late now account p r u) :
    ∃ r', (b.update r own u).2.receivers.get? account = some r' ∧
      r'.toRegistration = r.toRegistration ∧ r'.request = ⟨.sync, u.tableId, r.expects u, []⟩ := by
  refine ⟨(r.opened b.table u).receiver, ?_, Receiver.registration_opened, ?_⟩
  · rw [receivers_update, Receiver.apply_of_lt h.late, (hb account r h.receiver).1]
    exact Dict.get?_insert_self _ _ _
  · rw [Receiver.request, Receiver.tableId_opened, Receiver.epoch_opened]

/-! ## What is left of a message -/

namespace Received

variable {x : Reception × Broadcaster} {b' : Broadcaster} {errand : Option RouteErrand}

/-- A message that is refused changes nothing, unless it turns its receiver to another table. -/
theorem eq_or_late {e : Reject} (hb : b.Sound)
    (h : Received b operator now account p (.answered (.rejected e) errand, b')) :
    b' = b ∨ ∃ r u, b.Late now account p r u ∧ r.tableId ≠ u.tableId := by
  cases h with
  | refused => exact Or.inl rfl
  | @late u r _ hlate hupdate =>
    by_cases hid : r.tableId = u.tableId
    · have hsame : (b.update r operator u).2 = b :=
        update_eq_of_late hb hlate.receiver hlate.late hid
      rw [hupdate] at hsame
      exact Or.inl hsame
    · exact Or.inr ⟨r, u, hlate, hid⟩

/-- What a packet does not bring a message for stays. -/
theorem frame (h : Received b operator now account p x) :
    (p.destination ≠ controlDestination → x.2.senders = b.senders) ∧
      (p.destination ≠ updateDestination →
        x.2.receivers = b.receivers ∧ x.2.table = b.table) ∧
      (x.1 = .switched → x.2 = b) := by
  cases h with
  | switched | refused => exact ⟨fun _ => rfl, fun _ => ⟨rfl, rfl⟩, fun _ => rfl⟩
  | obeyed hp => exact ⟨fun h => absurd hp h, fun _ => ⟨rfl, rfl⟩, nofun⟩
  | updated hp _ _ hupdate =>
    exact ⟨fun _ => senders_of_update hupdate, fun hne => absurd hp hne, nofun⟩
  | late h hupdate =>
    exact ⟨fun _ => senders_of_update hupdate, fun hne => absurd h.destination hne, nofun⟩

theorem frame_of_ne (hb : b.Sound) (hs : b.SendersOf fun _ => True)
    (h : Received b operator now account p x) (ha : a ≠ account) :
    x.2.senders.get? a = b.senders.get? a ∧ x.2.receivers.get? a = b.receivers.get? a := by
  have hothers : ∀ {r u result b'}, b.receivers.get? account = some r →
      b.update r operator u = (result, b') → b'.senders.get? a = b.senders.get? a ∧
        b'.receivers.get? a = b.receivers.get? a := by
    intro r u result b' hr hupdate
    have hreceivers : (b.update r operator u).2.receivers
        = b.receivers.insert r.peer (r.apply b.table operator u).1.receiver := receivers_update
    rw [hupdate, (hb account r hr).1] at hreceivers
    rw [senders_of_update hupdate, hreceivers]
    exact ⟨rfl, Dict.get?_insert_of_ne _ _ ha.symm⟩
  cases h with
  | switched | refused => exact ⟨rfl, rfl⟩
  | @obeyed c s hp hc hsender =>
    refine ⟨?_, rfl⟩
    change (b.senders.insert _ (s.obey b.table.id b.nextBroadcast c)).get? a = _
    rw [s.peer_obey, (hs account s hsender).1]
    exact Dict.get?_insert_of_ne _ _ ha.symm
  | updated hp hu hr hupdate => exact hothers hr hupdate
  | late h hupdate => exact hothers h.receiver hupdate

end Received

/-- A message is handed to the sender or the receiver of the account it came from, and that has
taken it. -/
inductive Handed (b : Broadcaster) (operator : Option Address) (now : Instant)
    (account : AccountId) (p : Prepare) : Option RouteErrand → Broadcaster → Prop where
  | control {c : RouteControl} {s : Sender} (hp : p.destination = controlDestination)
      (hc : RouteControl.ofPrepare now p = .ok c) (hs : b.senders.get? account = some s)
      (hpeer : s.peer = account) :
      Handed b operator now account p ((b.obey s c).1.map .broadcast) (b.obey s c).2
  | update {u : RouteUpdate} {r : Receiver} {changed : List AddressPrefix} {b' : Broadcaster}
      (hp : p.destination = updateDestination) (hu : RouteUpdate.ofPrepare now p = .ok u)
      (hr : b.receivers.get? account = some r) (hpeer : r.peer = account)
      (h : b.update r operator u = (.ok changed, b')) : Handed b operator now account p none b'

/-- Only the one answer fulfills a route message, and only where the message was taken. -/
theorem Received.handed {f : Fulfill} {errand : Option RouteErrand} {b' : Broadcaster}
    (hb : b.Sound) (hs : b.SendersOf fun _ => True)
    (h : Received b operator now account p (.answered (.fulfilled f) errand, b')) :
    f = routeResponse ∧ Handed b operator now account p errand b' := by
  cases h with
  | obeyed hp hc hsender => exact ⟨rfl, .control hp hc hsender (hs _ _ hsender).1⟩
  | updated hp hu hr hupdate => exact ⟨rfl, .update hp hu hr (hb _ _ hr).1 hupdate⟩

end Broadcaster

end IlpConnector
