import IlpConnector.Proofs.Isolation
import IlpConnector.Proofs.TableHistory

/-!
# With whom routes are exchanged

Registering an account gives it what its settings ask for, and takes nothing away that it has
already.  So an account has a sender just if some registration since its last removal asks for one,
not only the latest one, and likewise with its receiver (`RegistryEvent.registered_of_run`).  A
registration that asks for no sender lets the broadcast of an older one run on.
-/

namespace IlpConnector

/-- What happens to the exchange of routes. -/
inductive RegistryEvent where
  | register (account : AccountSettings) (link : LinkRef) (id : TableId)
  | remove (account : AccountId)
  /-- A packet comes from an account's neighbour. -/
  | receive (operator : Option Address) (now : Instant) (account : AccountId) (p : Prepare)
  | start (account : AccountId)
  | stop (account : AccountId)
  /-- The next update is built, for a present or a former registration of an account. -/
  | tell (account : AccountId) (serial : ℕ) (accounts : AccountStore) (operator : Option Address)
  | change (o : TableOperation)
  | shutdown

namespace Broadcaster

variable {b : Broadcaster} {a a' : AccountId} {account : AccountSettings}

/-- Does something with a sender, if there is one. -/
def onSender (b : Broadcaster) (found : Option Sender) (f : Sender → Broadcaster) : Broadcaster :=
  match found with
  | none => b
  | some s => f s

theorem onSender_cases (b : Broadcaster) (found : Option Sender) (f : Sender → Broadcaster) :
    b.onSender found f = b ∨ ∃ s, found = some s ∧ b.onSender found f = f s := by
  cases found with
  | none => exact Or.inl rfl
  | some s => exact Or.inr ⟨s, rfl, rfl⟩

/-! ## What registering does -/

theorem senders_register (h : b.settings.broadcastEnabled = true) (account : AccountSettings)
    (link : LinkRef) (id : TableId) : (b.register account link id).2.senders =
      if account.sendsRoutes then
        b.senders.insert account.id { peer := account.id, link, serial := b.nextSerial }
      else b.senders := by
  unfold register
  rw [if_neg (by simp [h])]
  dsimp only
  split_ifs <;> rfl

theorem receivers_register_of_enabled (h : b.settings.broadcastEnabled = true)
    (account : AccountSettings) (link : LinkRef) (id : TableId) :
    (b.register account link id).2.receivers =
      if account.receivesRoutes then
        b.receivers.insert account.id
          { peer := account.id, link, serial := b.nextSerial, tableId := id }
      else b.receivers := by
  unfold register
  rw [if_neg (by simp [h])]
  dsimp only
  split_ifs <;> rfl

theorem isRunning_eq_false_of_contains (h : b.senders.contains a = false) (number : ℕ) :
    b.isRunning a number = false := by
  rw [Dict.contains, Option.isSome_eq_false_iff, Option.isNone_iff_eq_none] at h
  rw [isRunning, running?, h]
  rfl

/-- A registration that asks for a sender ends the broadcast of the one before; one that asks for
none leaves the sender as it is. -/
theorem sender_register (h : b.settings.broadcastEnabled = true) (account : AccountSettings)
    (link : LinkRef) (id : TableId) :
    (account.sendsRoutes = true → ∀ number,
      (b.register account link id).2.isRunning account.id number = false) ∧
    (account.sendsRoutes = false →
      (b.register account link id).2.senders.get? account.id = b.senders.get? account.id) := by
  refine ⟨fun hsends number => ?_, fun hsends => ?_⟩
  · rw [isRunning, running?, senders_register h, if_pos hsends, Dict.get?_insert_self]
    rfl
  · rw [senders_register h, hsends, if_neg Bool.false_ne_true]

/-! ## Everything else -/

/-- What does not give an account a sender or a receiver, and does not take one away. -/
structure LeavesBe (a : AccountId) (b b' : Broadcaster) : Prop where
  sender : b'.senders.contains a = b.senders.contains a
  receiver : b'.receivers.contains a = b.receivers.contains a

theorem leavesBe_withSender {s s' : Sender} (hb : b.Reached) (hs : b.senders.get? a' = some s)
    (h : s'.toRegistration = s.toRegistration) : LeavesBe a b (b.withSender s') where
  sender := by
    obtain ⟨rfl, -⟩ := hb.inv.2 a' s hs
    rw [← congrArg Registration.peer h] at hs
    exact Dict.contains_insert_of_get? hs s' a
  receiver := rfl

theorem leavesBe_withAnySender {s s' : Sender} {serial : ℕ} (hb : b.Reached)
    (hs : b.sender? a' serial = some s) (h : s'.toRegistration = s.toRegistration) :
    LeavesBe a b (b.withAnySender s') := by
  rcases withAnySender_cases (fun t ht => (hb.inv.2 a' t ht).1) hs h with
    ⟨hget, heq⟩ | ⟨-, heq⟩ <;> rw [heq]
  · exact leavesBe_withSender hb hget h
  · exact ⟨rfl, rfl⟩

theorem leavesBe_update (hb : b.Reached) {r : Receiver} (hr : b.receivers.get? a' = some r)
    (own : Option Address) (u : RouteUpdate) : LeavesBe a b (b.update r own u).2 where
  sender := by rw [senders_update]
  receiver := by
    obtain ⟨rfl, -⟩ := hb.inv.1 a' r hr
    rw [receivers_update]
    exact Dict.contains_insert_of_get? hr _ a

theorem leavesBe_receive (hb : b.Reached) (operator : Option Address) (now : Instant)
    (a' : AccountId) (p : Prepare) : LeavesBe a b (b.receive operator now a' p).2 := by
  have hx := b.received operator now a' p
  generalize b.receive operator now a' p = x at hx ⊢
  cases hx with
  | switched | refused => exact ⟨rfl, rfl⟩
  | @obeyed c s _ _ hs =>
    exact ⟨(leavesBe_withSender hb hs (s.registration_obey _ _ c)).sender, rfl⟩
  | @updated u r _ _ _ _ hr h =>
    have hafter : LeavesBe a b (b.update r operator u).2 := leavesBe_update hb hr operator u
    rwa [h] at hafter
  | @late u r _ hlate h =>
    have hafter : LeavesBe a b (b.update r operator u).2 :=
      leavesBe_update hb hlate.receiver operator u
    rwa [h] at hafter

end Broadcaster

namespace RegistryEvent

variable {b : Broadcaster} {a : AccountId} {e : RegistryEvent} {es : List RegistryEvent}
  {known : List AccountSettings}

def apply (b : Broadcaster) : RegistryEvent → Broadcaster
  | register account link id => (b.register account link id).2
  | remove account => b.remove account
  | receive operator now account p => (b.receive operator now account p).2
  | start account => b.onSender (b.senders.get? account) fun s => (b.start s).2
  | stop account => b.onSender (b.senders.get? account) fun s => b.stop s
  | tell account serial accounts operator =>
    b.onSender (b.sender? account serial) fun s => (b.nextUpdate s accounts operator).2
  | change o => { b with table := (o.apply b.table).2 }
  | shutdown => b.shutdown

def run (es : List RegistryEvent) (b : Broadcaster) : Broadcaster :=
  es.foldl (fun b e => e.apply b) b

/-- The event registers an account, or removes it. -/
def Concerns (a : AccountId) : RegistryEvent → Prop
  | register account _ _ => account.id = a
  | remove account => account = a
  | _ => False

/-- The registrations of an account that still count after one more event. -/
def note (a : AccountId) (known : List AccountSettings) : RegistryEvent → List AccountSettings
  | register account _ _ => if account.id = a then known ++ [account] else known
  | remove account => if account = a then [] else known
  | _ => known

/-- The registrations of an account since it was removed last, the latest one last. -/
def since (a : AccountId) (es : List RegistryEvent) : List AccountSettings :=
  es.foldl (note a) []

theorem note_of_not_concerns (h : ¬ e.Concerns a) : note a known e = known := by
  cases e with
  | register | remove => exact if_neg h
  | _ => rfl

theorem since_append_of_not_concerns {more : List RegistryEvent}
    (h : ∀ e ∈ more, ¬ e.Concerns a) : since a (es ++ more) = since a es := by
  unfold since
  rw [List.foldl_append]
  generalize es.foldl (note a) [] = known
  induction more with
  | nil => rfl
  | cons e more ih =>
    rw [List.forall_mem_cons] at h
    rw [List.foldl_cons, note_of_not_concerns h.1, ih h.2]

theorem becomes_onSender {found : Option Sender} {f : Sender → Broadcaster}
    (h : ∀ s, found = some s → b.Becomes (f s)) : b.Becomes (b.onSender found f) := by
  rcases b.onSender_cases found f with heq | ⟨s, hs, heq⟩ <;> rw [heq]
  exact h s hs

theorem becomes_apply (hb : b.Reached) (e : RegistryEvent) : b.Becomes (e.apply b) := by
  cases e with
  | register account link id => exact .single (.step (.register account link id))
  | remove account => exact .single (.step (.remove account))
  | receive operator now account p => exact b.becomes_receive operator now account p
  | start account =>
    exact becomes_onSender fun s hs => .single (.sender _ hs (s.registration_start _) _)
  | stop account => exact becomes_onSender fun s hs => Broadcaster.becomes_withSender hs rfl
  | tell account serial accounts operator =>
    exact becomes_onSender fun s hs => hb.becomes_withAnySender hs rfl
  | change o => exact .single (.table _)
  | shutdown => exact .single .shutdown

theorem settings_apply (b : Broadcaster) (e : RegistryEvent) :
    (e.apply b).settings = b.settings := by
  have hon : ∀ {found : Option Sender} {f : Sender → Broadcaster},
      (∀ s, (f s).settings = b.settings) → (b.onSender found f).settings = b.settings := by
    intro found f h
    rcases b.onSender_cases found f with heq | ⟨s, -, heq⟩ <;> rw [heq]
    exact h s
  cases e with
  | register account link id => exact b.settings_register account link id
  | remove account =>
    unfold apply Broadcaster.remove
    dsimp only
    split_ifs
    · rw [Broadcaster.settings_select]
    · rfl
  | receive operator now account p =>
    rcases b.receive_cases operator now account p with ⟨-, -, h⟩ | ⟨u, r, -, -, h⟩
    · exact h
    · exact (congrArg Broadcaster.settings h).trans Broadcaster.settings_update
  | start | stop => exact hon fun _ => rfl
  | tell => exact hon fun _ => b.settings_withAnySender _
  | change | shutdown => rfl

theorem leavesBe_onSender {found : Option Sender} {f : Sender → Broadcaster}
    (h : ∀ s, found = some s → b.LeavesBe a (f s)) : b.LeavesBe a (b.onSender found f) := by
  rcases b.onSender_cases found f with heq | ⟨s, hs, heq⟩ <;> rw [heq]
  · exact ⟨rfl, rfl⟩
  · exact h s hs

theorem leavesBe_apply (hb : b.Reached) (henabled : b.settings.broadcastEnabled = true)
    (he : ¬ e.Concerns a) : b.LeavesBe a (e.apply b) := by
  cases e with
  | register account link id =>
    refine ⟨?_, ?_⟩
    · unfold apply
      rw [Broadcaster.senders_register henabled]
      split_ifs
      · exact Dict.contains_insert_of_ne _ _ he
      · rfl
    · unfold apply
      rw [Broadcaster.receivers_register_of_enabled henabled]
      split_ifs
      · exact Dict.contains_insert_of_ne _ _ he
      · rfl
  | remove account =>
    refine ⟨?_, ?_⟩
    · unfold apply
      rw [Broadcaster.senders_remove]
      exact Dict.contains_erase_of_ne _ he
    · unfold apply
      rw [Broadcaster.receivers_remove]
      exact Dict.contains_erase_of_ne _ he
  | receive operator now account p => exact Broadcaster.leavesBe_receive hb operator now account p
  | start account =>
    exact leavesBe_onSender fun s hs =>
      ⟨(Broadcaster.leavesBe_withSender hb hs (s.registration_start _)).sender, rfl⟩
  | stop account =>
    exact leavesBe_onSender fun s hs => Broadcaster.leavesBe_withSender hb hs rfl
  | tell account serial accounts operator =>
    exact leavesBe_onSender fun s hs => Broadcaster.leavesBe_withAnySender hb hs rfl
  | change o => exact ⟨rfl, rfl⟩
  | shutdown =>
    refine ⟨?_, rfl⟩
    change Option.isSome ((b.senders.mapValues fun _ s => s.stop).get? a) = _
    rw [Dict.get?_mapValues, Option.isSome_map]
    rfl

/-! ## Runs -/

/-- An account has what some of its registrations ask for. -/
structure Registered (a : AccountId) (known : List AccountSettings) (b : Broadcaster) : Prop where
  reached : b.Reached
  enabled : b.settings.broadcastEnabled = true
  sender : b.senders.contains a = known.any (·.sendsRoutes)
  receiver : b.receivers.contains a = known.any (·.receivesRoutes)

theorem Registered.apply (h : Registered a known b) (e : RegistryEvent) :
    Registered a (note a known e) (e.apply b) := by
  have hreached := h.reached.becomes (becomes_apply h.reached e)
  have henabled : (e.apply b).settings.broadcastEnabled = true := by
    rw [settings_apply]
    exact h.enabled
  by_cases he : e.Concerns a
  · cases e with
    | register account link id =>
      obtain rfl : account.id = a := he
      refine ⟨hreached, henabled, ?_, ?_⟩
      · unfold RegistryEvent.apply
        rw [note, if_pos rfl, List.any_append, List.any_cons, List.any_nil, Bool.or_false,
          Broadcaster.senders_register h.enabled]
        cases account.sendsRoutes with
        | false => rw [Bool.or_false]; exact h.sender
        | true => rw [Bool.or_true]; exact Dict.contains_insert_self _ _ _
      · unfold RegistryEvent.apply
        rw [note, if_pos rfl, List.any_append, List.any_cons, List.any_nil, Bool.or_false,
          Broadcaster.receivers_register_of_enabled h.enabled]
        cases account.receivesRoutes with
        | false => rw [Bool.or_false]; exact h.receiver
        | true => rw [Bool.or_true]; exact Dict.contains_insert_self _ _ _
    | remove account =>
      obtain rfl : account = a := he
      refine ⟨hreached, henabled, ?_, ?_⟩
      · unfold RegistryEvent.apply
        rw [note, if_pos rfl, Broadcaster.senders_remove]
        exact Dict.contains_erase_self _ _
      · unfold RegistryEvent.apply
        rw [note, if_pos rfl, Broadcaster.receivers_remove]
        exact Dict.contains_erase_self _ _
    | _ => exact he.elim
  · obtain ⟨hsender, hreceiver⟩ := leavesBe_apply h.reached h.enabled he
    rw [note_of_not_concerns he]
    exact ⟨hreached, henabled, hsender.trans h.sender, hreceiver.trans h.receiver⟩

theorem registered_run {settings : RoutingSettings} (henabled : settings.broadcastEnabled = true)
    (table : ForwardingTable) (a : AccountId) (es : List RegistryEvent) :
    Registered a (since a es) (run es { settings, table }) := by
  have hrun : ∀ (es : List RegistryEvent) (known : List AccountSettings) (b : Broadcaster),
      Registered a known b → Registered a (es.foldl (note a) known) (run es b) := by
    intro es
    induction es with
    | nil => exact fun _ _ h => h
    | cons e es ih => exact fun known b h => ih _ _ (h.apply e)
  exact hrun es [] _ ⟨.start settings table, henabled, rfl, rfl⟩

/-- Every sender can be set going. -/
theorem exists_isRunning_start (hb : b.Reached) (h : b.senders.contains a = true) :
    ∃ number, ((start a).apply b).isRunning a number = true := by
  obtain ⟨s, hs⟩ := Dict.contains_iff.mp h
  have hpeer : (s.start b.nextBroadcast).peer = a :=
    (congrArg Registration.peer (s.registration_start _)).trans (hb.inv.2 a s hs).1
  have hafter : ((start a).apply b).senders.get? a = some (s.start b.nextBroadcast) := by
    change (b.onSender (b.senders.get? a) fun s => (b.start s).2).senders.get? a = _
    rw [hs, Broadcaster.onSender, ← hpeer]
    exact Dict.get?_insert_self _ _ _
  have hstarted : ∃ number, (s.start b.nextBroadcast).broadcast = some number := by
    unfold Sender.start
    split_ifs with hrun
    · exact Option.isSome_iff_exists.mp hrun
    · exact ⟨_, rfl⟩
  obtain ⟨number, hnumber⟩ := hstarted
  refine ⟨number, ?_⟩
  rw [Broadcaster.isRunning, Broadcaster.running?, hafter, Option.isSome_filter, Option.any_some,
    hnumber]
  exact decide_eq_true rfl

/-- What the latest of some items has, some item has. -/
theorem any_eq_getLast?_any_iff {α : Type} (f : α → Bool) (xs : List α) :
    xs.any f = xs.getLast?.any f ↔ (xs.any f = true → xs.getLast?.any f = true) := by
  refine ⟨fun h hany => h ▸ hany, fun h => Bool.eq_iff_iff.mpr ⟨h, fun hlast => ?_⟩⟩
  cases hx : xs.getLast? with
  | none => rw [hx] at hlast; cases hlast
  | some x =>
    rw [hx] at hlast
    exact List.any_eq_true.mpr ⟨x, List.mem_of_getLast? hx, hlast⟩

/-- With broadcasts enabled, whatever happens to an exchange of routes that starts without accounts:
an account has a sender if and only if some registration since its last removal asks for one, and
likewise a receiver.  So it has what its latest registration asks for, just if that asks for as much
as the ones before together.  A broadcast to an account may come to run if and only if it has a
sender, whatever its latest registration asks for; registering it again ends the broadcast if this
asks for a sender, and leaves the sender as it is if not. -/
theorem registered_of_run (settings : RoutingSettings) (table : ForwardingTable)
    (henabled : settings.broadcastEnabled = true) (es : List RegistryEvent) (a : AccountId) :
    let b := run es { settings, table }
    let known := since a es
    b.senders.contains a = known.any (·.sendsRoutes) ∧
    b.receivers.contains a = known.any (·.receivesRoutes) ∧
    (b.senders.contains a = known.getLast?.any (·.sendsRoutes) ↔
      (known.any (·.sendsRoutes) = true → known.getLast?.any (·.sendsRoutes) = true)) ∧
    (b.receivers.contains a = known.getLast?.any (·.receivesRoutes) ↔
      (known.any (·.receivesRoutes) = true → known.getLast?.any (·.receivesRoutes) = true)) ∧
    ((∃ more, (∀ e ∈ more, ¬ e.Concerns a) ∧
        ∃ number, (run (es ++ more) { settings, table }).isRunning a number = true) ↔
      known.any (·.sendsRoutes) = true) ∧
    ∀ (account : AccountSettings) (link : LinkRef) (id : TableId), account.id = a →
      (account.sendsRoutes = true →
        ∀ number, (b.register account link id).2.isRunning a number = false) ∧
      (account.sendsRoutes = false →
        (b.register account link id).2.senders.get? a = b.senders.get? a) := by
  intro b known
  have h : Registered a known b := registered_run henabled table a es
  refine ⟨h.sender, h.receiver, ?_, ?_, ⟨?_, fun hany => ?_⟩, ?_⟩
  · rw [h.sender]
    exact any_eq_getLast?_any_iff _ _
  · rw [h.receiver]
    exact any_eq_getLast?_any_iff _ _
  · rintro ⟨more, hmore, number, hrun⟩
    have hlater := registered_run henabled table a (es ++ more)
    rw [since_append_of_not_concerns hmore] at hlater
    by_contra hany
    have hnone := hlater.sender.trans (Bool.not_eq_true _ ▸ hany)
    rw [Broadcaster.isRunning_eq_false_of_contains hnone] at hrun
    cases hrun
  · refine ⟨[start a], fun e he => ?_, ?_⟩
    · obtain rfl := List.mem_singleton.mp he
      exact not_false
    · unfold run
      rw [List.foldl_append]
      exact exists_isRunning_start h.reached (h.sender.trans hany)
  · rintro account link id rfl
    exact Broadcaster.sender_register h.enabled account link id

open Broadcaster.Comeback (near)

/-- A neighbour that is to be neither told nor heard any more. -/
def silent : AccountSettings := { near with sendRoutes := some false, receiveRoutes := some false }

/-- A neighbour is told routes, and is then registered as one that is to be neither told nor
heard. -/
def silenced : List RegistryEvent :=
  [.register near ⟨0⟩ (.plain 1), .start near.id, .register silent ⟨1⟩ (.plain 2)]

/-- Once the neighbour is removed, the first registration does not count any more. -/
theorem registered_of_run_removed :
    ∃ (settings : RoutingSettings) (table : ForwardingTable) (es : List RegistryEvent)
      (a : AccountId), settings.broadcastEnabled = true ∧ since a es = [silent] ∧
      (run es { settings, table }).senders.contains a = false ∧
      (run es { settings, table }).receivers.contains a = false ∧
      ∀ more, (∀ e ∈ more, ¬ e.Concerns a) →
        ∀ number, (run (es ++ more) { settings, table }).isRunning a number = false := by
  let es : List RegistryEvent := silenced ++ [.remove near.id, .register silent ⟨2⟩ (.plain 3)]
  have hsince : since near.id es = [silent] := by decide +kernel
  obtain ⟨hsender, hreceiver, -, -, hruns, -⟩ :=
    registered_of_run {} (.fresh (.plain 0)) rfl es near.id
  rw [hsince] at hsender hreceiver hruns
  refine ⟨{}, .fresh (.plain 0), es, near.id, rfl, hsince, hsender, hreceiver,
    fun more hmore number => ?_⟩
  by_contra hrun
  have hsends : [silent].any (·.sendsRoutes) = true :=
    hruns.mp ⟨more, hmore, number, Bool.not_eq_false _ ▸ hrun⟩
  cases hsends

/-- The latest registration asks for neither, but there are still a sender and a receiver, and a
broadcast runs. -/
theorem silenced_keeps_sender :
    ∃ (settings : RoutingSettings) (table : ForwardingTable) (es : List RegistryEvent)
      (account : AccountSettings), settings.broadcastEnabled = true ∧
      (since account.id es).getLast? = some account ∧
      account.sendsRoutes = false ∧ account.receivesRoutes = false ∧
      (run es { settings, table }).senders.contains account.id = true ∧
      (run es { settings, table }).receivers.contains account.id = true ∧
      ∃ number, (run es { settings, table }).isRunning account.id number = true :=
  ⟨{}, .fresh (.plain 0), silenced, silent, rfl, by decide +kernel, rfl, rfl, by decide +kernel,
    by decide +kernel, 0, by decide +kernel⟩

end RegistryEvent

end IlpConnector
