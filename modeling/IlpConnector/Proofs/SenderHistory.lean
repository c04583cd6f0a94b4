import IlpConnector.Proofs.Registry

/-!
# What has happened to senders

A broadcast is live from when its task begins until its account is asked to be idle, gets another
sender, or is removed, or all broadcasts are ended (`SenderEvent.Live`).  What a sender has going is
told by that history (`SenderEvent.Tallies`): the broadcasts that are live are those whose numbers
the registered senders have, and a sender has one only in the mode in which it was last asked to be.
-/

namespace IlpConnector

/-- What happens to the senders of a node, and to the tasks that broadcast for them. -/
inductive SenderEvent where
  /-- An account's neighbour asks, and the sender does what it is asked for. -/
  | asked (account : AccountId) (mode : RouteMode)
  /-- An account gets a new sender, in place of the one that it may have. -/
  | renewed (account : AccountId)
  | removed (account : AccountId)
  /-- All broadcasts are ended. -/
  | silenced
  /-- A task begins that broadcasts to an account under a number. -/
  | began (account : AccountId) (number task : ℕ)
  /-- A task has an account told about routes. -/
  | told (account : AccountId) (task : ℕ)
deriving DecidableEq

namespace SenderEvent

variable {a : AccountId} {number task : ℕ} {e : SenderEvent} {es : List SenderEvent}
  {mode : RouteMode}

/-- The event ends the broadcast to an account. -/
def Stops (a : AccountId) : SenderEvent → Prop
  | asked account .idle | renewed account | removed account => account = a
  | silenced => True
  | _ => False

/-- What an account's sender has been asked for last, once the event has happened. -/
def heard (a : AccountId) (last : Option RouteMode) : SenderEvent → Option RouteMode
  | asked account mode => if account = a then some mode else last
  | renewed account | removed account => if account = a then none else last
  | _ => last

/-- What the sender that an account has was asked for last. -/
def lastAsked (a : AccountId) (es : List SenderEvent) : Option RouteMode :=
  es.foldl (heard a) none

/-- A broadcast has begun, and nothing has ended it since. -/
def Live (a : AccountId) (number task : ℕ) (es : List SenderEvent) : Prop :=
  ∃ before after, es = before ++ began a number task :: after ∧ ∀ e ∈ after, ¬ e.Stops a

/-- An event of a longer history is the last one, or one of the history before. -/
theorem concat_eq_append_cons_iff {before after : List SenderEvent} {e' : SenderEvent} :
    es ++ [e] = before ++ e' :: after ↔ (es = before ∧ e = e' ∧ after = []) ∨
      ∃ between, es = before ++ e' :: between ∧ after = between ++ [e] := by
  rcases List.eq_nil_or_concat after with rfl | ⟨between, x, rfl⟩
  · simp
  · rw [List.concat_eq_append, ← List.cons_append, ← List.append_assoc, ← List.concat_eq_append,
      ← List.concat_eq_append, List.concat_inj]
    constructor
    · rintro ⟨rfl, rfl⟩
      exact Or.inr ⟨between, rfl, rfl⟩
    · rintro (⟨-, -, h⟩ | ⟨between', hes, h⟩)
      · simp at h
      · obtain ⟨rfl, h⟩ := List.append_inj' h rfl
        exact ⟨hes, by simpa [eq_comm] using h⟩

theorem lastAsked_concat (es : List SenderEvent) (e : SenderEvent) :
    lastAsked a (es ++ [e]) = e.heard a (lastAsked a es) :=
  List.foldl_concat ..

theorem Live.began_mem (h : Live a number task es) : began a number task ∈ es := by
  obtain ⟨before, after, rfl, -⟩ := h
  simp

theorem Live.append {es' : List SenderEvent} (h : Live a number task es)
    (hes' : ∀ e ∈ es', ¬ e.Stops a) : Live a number task (es ++ es') := by
  obtain ⟨before, after, rfl, hafter⟩ := h
  exact ⟨before, after ++ es', by simp, List.forall_mem_append.mpr ⟨hafter, hes'⟩⟩

theorem live_concat : Live a number task (es ++ [e]) ↔
    e = began a number task ∨ Live a number task es ∧ ¬ e.Stops a := by
  constructor
  · rintro ⟨before, after, heq, hafter⟩
    rcases concat_eq_append_cons_iff.mp heq with ⟨-, he, -⟩ | ⟨between, hes, rfl⟩
    · exact Or.inl he
    · rw [List.forall_mem_append, List.forall_mem_singleton] at hafter
      exact Or.inr ⟨⟨before, between, hes, hafter.1⟩, hafter.2⟩
  · rintro (rfl | ⟨h, he⟩)
    · exact ⟨es, [], rfl, by simp⟩
    · exact h.append (List.forall_mem_singleton.mpr he)

/-! ## What senders are to do -/

/-- What an event makes of an account's sender, of which the mode and the number of the broadcast are
told, if there is one; a broadcast that it starts gets the given number. -/
def after (number : ℕ) (a : AccountId) (duty : Option (RouteMode × Option ℕ)) :
    SenderEvent → Option (RouteMode × Option ℕ)
  | asked account .idle => if account = a then duty.map fun _ => (.idle, none) else duty
  | asked account .sync =>
    if account = a then duty.map fun d => (.sync, some (d.2.getD number)) else duty
  | renewed account => if account = a then some (.idle, none) else duty
  | removed account => if account = a then none else duty
  | silenced => duty.map fun d => (d.1, none)
  | began .. | told .. => duty

end SenderEvent

namespace Broadcaster

open SenderEvent

variable {b : Broadcaster} {a : AccountId} {s : Sender}

/-- The mode of an account's sender and the number of its broadcast. -/
def duty (b : Broadcaster) (a : AccountId) : Option (RouteMode × Option ℕ) :=
  (b.senders.get? a).map fun s => (s.mode, s.broadcast)

theorem duty_eq_some_iff {mode : RouteMode} {broadcast : Option ℕ} :
    b.duty a = some (mode, broadcast) ↔
      ∃ s, b.senders.get? a = some s ∧ s.mode = mode ∧ s.broadcast = broadcast := by
  simp [duty]

theorem isRunning_iff {number : ℕ} :
    b.isRunning a number = true ↔ ∃ mode, b.duty a = some (mode, some number) := by
  simp only [duty_eq_some_iff, isRunning, running?]
  cases b.senders.get? a <;> simp

/-- A sender may note something else and have the same to do. -/
theorem duty_withSender {s' : Sender} (hs : b.senders.get? a = some s) (hpeer : s'.peer = a)
    (hmode : s'.mode = s.mode) (hbroadcast : s'.broadcast = s.broadcast) :
    (b.withSender s').duty = b.duty := by
  funext a'
  change ((b.senders.insert _ s').get? a').map _ = _
  rw [hpeer, Dict.get?_insert]
  simp only [keyText_eq_iff]
  split_ifs with ha
  · subst ha
    simp [duty, hs, hmode, hbroadcast]
  · rfl

theorem duty_withAnySender {s' : Sender} {serial : ℕ} (hkeyed : b.SendersOf fun _ => True)
    (h : b.sender? a serial = some s) (hs' : s'.toRegistration = s.toRegistration)
    (hmode : s'.mode = s.mode) (hbroadcast : s'.broadcast = s.broadcast) :
    (b.withAnySender s').duty = b.duty := by
  rcases withAnySender_cases (fun t ht => (hkeyed a t ht).1) h hs' with
    ⟨hget, heq⟩ | ⟨-, heq⟩ <;> rw [heq]
  · have hpeer : s'.peer = s.peer := congrArg Registration.peer hs'
    exact duty_withSender hget (hpeer.trans (hkeyed a s hget).1) hmode hbroadcast
  · rfl

theorem duty_obey (hs : b.senders.get? a = some s) (hpeer : s.peer = a) (c : RouteControl)
    (a' : AccountId) : (b.obey s c).2.duty a'
      = (asked a c.mode).after b.nextBroadcast a' (b.duty a') := by
  change ((b.senders.insert _ (s.obey b.table.id b.nextBroadcast c)).get? a').map _ = _
  rw [s.peer_obey, hpeer, Dict.get?_insert]
  simp only [keyText_eq_iff]
  by_cases ha : a = a'
  · subst ha
    rw [if_pos rfl, duty, hs, Option.map_some, Sender.obey]
    cases hmode : c.mode with
    | idle => simp [after, Sender.note, Sender.stop, hmode]
    | sync =>
      cases hbroadcast : s.broadcast <;>
        simp [after, Sender.note, Sender.start, hbroadcast, hmode]
  · rw [if_neg ha]
    cases c.mode <;> simp [after, ha, duty]

/-- A request starts a broadcast if it asks for one and none is going. -/
theorem obey_fst_eq_some_iff (hs : b.senders.get? a = some s) {c : RouteControl} {number : ℕ} :
    (b.obey s c).1 = some number ↔
      c.mode = .sync ∧ (∃ mode, b.duty a = some (mode, none)) ∧ number = b.nextBroadcast := by
  have hduty : (∃ mode, b.duty a = some (mode, none)) ↔ s.broadcast = none := by
    simp [duty_eq_some_iff, hs]
  rw [obey, hduty]
  cases c.mode <;> cases s.broadcast <;> simp [eq_comm]

/-- A registration gives a new sender, or leaves the senders as they are. -/
theorem duty_register (b : Broadcaster) (account : AccountSettings) (link : LinkRef) (id : TableId)
    (a' : AccountId) : (b.register account link id).2.duty a' =
      if b.settings.broadcastEnabled && account.sendsRoutes then
        (renewed account.id).after b.nextBroadcast a' (b.duty a')
      else b.duty a' := by
  unfold duty
  cases henabled : b.settings.broadcastEnabled with
  | false => simp [register, henabled]
  | true =>
    rw [senders_register henabled]
    cases account.sendsRoutes with
    | false => simp
    | true =>
      simp only [Bool.and_true, if_true, Dict.get?_insert, keyText_eq_iff, after]
      split_ifs <;> rfl

theorem duty_remove (b : Broadcaster) (a a' : AccountId) : (b.remove a).duty a'
    = (removed a).after b.nextBroadcast a' (b.duty a') := by
  simp only [duty, senders_remove, Dict.get?_erase, keyText_eq_iff, after]
  split_ifs <;> rfl

theorem duty_shutdown (b : Broadcaster) (a' : AccountId) : b.shutdown.duty a'
    = silenced.after b.nextBroadcast a' (b.duty a') := by
  change ((b.senders.mapValues fun _ s => s.stop).get? a').map _ = _
  rw [Dict.get?_mapValues, Option.map_map, after, duty, Option.map_map]
  rfl

/-! ## The numbers given out -/

theorem nextBroadcast_register (b : Broadcaster) (account : AccountSettings) (link : LinkRef)
    (id : TableId) : (b.register account link id).2.nextBroadcast = b.nextBroadcast := by
  unfold register
  split_ifs <;> rfl

theorem nextBroadcast_remove (b : Broadcaster) (a : AccountId) :
    (b.remove a).nextBroadcast = b.nextBroadcast := by
  unfold remove
  dsimp only
  split_ifs
  · rw [nextBroadcast_select]
  · rfl

theorem nextBroadcast_of_update {r : Receiver} {own : Option Address} {u : RouteUpdate}
    {result : Except EpochGap (List AddressPrefix)} {b' : Broadcaster}
    (h : b.update r own u = (result, b')) : b'.nextBroadcast = b.nextBroadcast := by
  have hsame : (b.update r own u).2.nextBroadcast = b.nextBroadcast := by
    rw [update_snd, nextBroadcast_select]
    rfl
  rwa [h] at hsame

/-! ## Packets of neighbours -/

section Receive

variable (operator : Option Address) {now : Instant} {p : Prepare} {c : RouteControl}

theorem receive_of_request (hp : p.destination = controlDestination)
    (hc : RouteControl.ofPrepare now p = .ok c) (hs : b.senders.get? a = some s) :
    b.receive operator now a p
      = (accepted ((b.obey s c).1.map .broadcast), (b.obey s c).2) := by
  simp only [receive, receiveControl, if_pos hp, hc, hs]

/-- What is no request that a sender obeys changes nothing for the senders and starts no
broadcast. -/
theorem receive_of_no_request (h : ∀ c s, p.destination = controlDestination →
    RouteControl.ofPrepare now p = .ok c → b.senders.get? a ≠ some s) :
    let x := b.receive operator now a p
    x.2.senders = b.senders ∧ x.2.nextBroadcast = b.nextBroadcast ∧
      ∀ reply number, x.1 ≠ .answered reply (some (.broadcast number)) := by
  have hx := b.received operator now a p
  generalize b.receive operator now a p = x at hx ⊢
  cases hx with
  | switched | refused => exact ⟨rfl, rfl, by simp⟩
  | obeyed hp hc hs => exact absurd hs (h _ _ hp hc)
  | updated _ _ _ hupdate =>
    exact ⟨senders_of_update hupdate, nextBroadcast_of_update hupdate, by simp⟩
  | late _ hupdate =>
    exact ⟨senders_of_update hupdate, nextBroadcast_of_update hupdate, by simp⟩

end Receive

end Broadcaster

namespace SenderEvent

variable {a : AccountId} {number task next next' : ℕ} {e : SenderEvent} {es : List SenderEvent}
  {duty duty' : AccountId → Option (RouteMode × Option ℕ)} {launch launch' : Option (AccountId × ℕ)}

/-- A history accounts for what senders are to do.  The numbers of their broadcasts are those of the
live ones, and of one that is about to begin, if there is one. -/
structure Tallies (es : List SenderEvent) (duty : AccountId → Option (RouteMode × Option ℕ))
    (next : ℕ) (launch : Option (AccountId × ℕ)) : Prop where
  running : ∀ a mode k, duty a = some (mode, some k) → mode = .sync ∧
    lastAsked a es = some .sync ∧ (launch = some (a, k) ∨ ∃ id, Live a k id es)
  live : ∀ a k id, Live a k id es → ∃ mode, duty a = some (mode, some k)
  launching : ∀ a k, launch = some (a, k) → (∃ mode, duty a = some (mode, some k)) ∧ k < next ∧
    ∀ id, began a k id ∉ es
  number : ∀ a k id, began a k id ∈ es → k < next
  unique : ∀ a k id id', began a k id ∈ es → began a k id' ∈ es → id = id'

theorem tallies_nil (h : ∀ a, duty a = none) : Tallies [] duty next none where
  running a mode k hduty := by simp [h a] at hduty
  live a k id hlive := by simpa using hlive.began_mem
  launching a k h := by simp at h
  number a k id h := by simp at h
  unique a k id id' h := by simp at h

/-- Numbers stay those of live broadcasts if they do so unless the event stops them, and a number
that is new is to begin. -/
theorem Tallies.of_event (h : Tallies es duty next none) (he : ∀ a k id, e ≠ began a k id)
    (hnext : next ≤ next')
    (hrunning : ∀ a mode k, duty' a = some (mode, some k) → mode = .sync ∧
      lastAsked a (es ++ [e]) = some .sync ∧ (launch' = some (a, k) ∨
        (∃ mode, duty a = some (mode, some k)) ∧ ¬ e.Stops a))
    (hlive : ∀ a mode k, duty a = some (mode, some k) → ¬ e.Stops a →
      ∃ mode', duty' a = some (mode', some k))
    (hlaunch : ∀ a k, launch' = some (a, k) →
      (∃ mode, duty' a = some (mode, some k)) ∧ k = next ∧ next < next') :
    Tallies (es ++ [e]) duty' next' launch' := by
  have hbegan : ∀ {a k id}, began a k id ∈ es ++ [e] → began a k id ∈ es := fun hmem =>
    (List.mem_append.mp hmem).resolve_right fun hmem => he _ _ _ (List.mem_singleton.mp hmem).symm
  constructor
  · intro a mode k hduty
    obtain ⟨hmode, hasked, hor⟩ := hrunning a mode k hduty
    refine ⟨hmode, hasked, hor.imp_right ?_⟩
    rintro ⟨⟨mode', hbefore⟩, hstops⟩
    obtain ⟨-, -, hcases⟩ := h.running a mode' k hbefore
    obtain ⟨id, hid⟩ := hcases.resolve_left (by simp)
    exact ⟨id, live_concat.mpr (Or.inr ⟨hid, hstops⟩)⟩
  · intro a k id hid
    obtain ⟨hid, hstops⟩ := (live_concat.mp hid).resolve_left (he a k id)
    obtain ⟨mode, hbefore⟩ := h.live a k id hid
    exact hlive a mode k hbefore hstops
  · intro a k hnew
    obtain ⟨hduty, rfl, hlt⟩ := hlaunch a k hnew
    exact ⟨hduty, hlt, fun id hid => Nat.lt_irrefl _ (h.number a k id (hbegan hid))⟩
  · exact fun a k id hid => Nat.lt_of_lt_of_le (h.number a k id (hbegan hid)) hnext
  · exact fun a k id id' hid hid' => h.unique a k id id' (hbegan hid) (hbegan hid')

/-- An event that asks an account for nothing and leaves its sender with its broadcast. -/
theorem Tallies.running_concat (h : Tallies es duty next none) {k : ℕ}
    (hduty : duty a = some (mode, some k)) (he : ∀ last, e.heard a last = last) :
    mode = .sync ∧ lastAsked a (es ++ [e]) = some .sync := by
  obtain ⟨hmode, hasked, -⟩ := h.running a mode k hduty
  exact ⟨hmode, by rw [lastAsked_concat, he, hasked]⟩

/-- A request that asks for a broadcast has one begin, unless one is going. -/
theorem Tallies.asked (h : Tallies es duty next none)
    (hlaunch : ∀ a' k, launch = some (a', k) ↔
      mode = .sync ∧ (∃ mode', duty a = some (mode', none)) ∧ a' = a ∧ k = next) :
    Tallies (es ++ [asked a mode]) (fun a' => (SenderEvent.asked a mode).after next a' (duty a'))
      (next + 1) launch := by
  refine h.of_event (by simp) (Nat.le_succ next) (fun a' mode' k hduty => ?_)
    (fun a' mode' k hduty hstops => ?_) fun a' k hnew => ?_
  · by_cases ha : a = a'
    · subst ha
      cases mode with
      | idle => simp [after] at hduty
      | sync =>
        obtain ⟨⟨mode, broadcast⟩, hbefore, hafter⟩ : ∃ d, duty a = some d ∧
            (RouteMode.sync, some (d.2.getD next)) = (mode', some k) := by
          simpa [after] using hduty
        obtain ⟨rfl, hk⟩ := Prod.mk.inj hafter
        refine ⟨rfl, by simp [lastAsked_concat, heard], ?_⟩
        cases broadcast with
        | none =>
          obtain rfl : next = k := by simpa using hk
          exact Or.inl ((hlaunch a next).mpr ⟨rfl, ⟨mode, hbefore⟩, rfl, rfl⟩)
        | some number =>
          obtain rfl : number = k := by simpa using hk
          exact Or.inr ⟨⟨mode, hbefore⟩, by simp [Stops]⟩
    · have hsame : duty a' = some (mode', some k) := by
        cases mode <;> simpa [after, ha] using hduty
      obtain ⟨hmode, hasked⟩ :=
        h.running_concat (e := .asked a mode) hsame fun last => if_neg ha
      exact ⟨hmode, hasked, Or.inr ⟨⟨mode', hsame⟩, by cases mode <;> simp [Stops, ha]⟩⟩
  · cases mode with
    | idle =>
      have ha : ¬ a = a' := hstops
      exact ⟨mode', by simp [after, ha, hduty]⟩
    | sync =>
      by_cases ha : a = a'
      · subst ha
        exact ⟨.sync, by simp [after, hduty]⟩
      · exact ⟨mode', by simp [after, ha, hduty]⟩
  · obtain ⟨rfl, ⟨mode', hbefore⟩, rfl, rfl⟩ := (hlaunch a' k).mp hnew
    exact ⟨⟨.sync, by simp [after, hbefore]⟩, rfl, Nat.lt_succ_self _⟩

/-- Senders go, or their broadcasts are ended. -/
def Drops : SenderEvent → Prop
  | renewed _ | removed _ | silenced => True
  | _ => False

theorem Stops.drops (h : e.Stops a) (he : e ≠ .asked a .idle) : e.Drops := by
  cases e with
  | asked account mode =>
    cases mode with
    | idle => exact absurd (congrArg (SenderEvent.asked · RouteMode.idle) h) he
    | sync => exact h.elim
  | renewed | removed | silenced => trivial
  | began | told => exact h.elim

/-- Where a sender goes or its broadcast is ended, the others go on. -/
theorem Tallies.dropped (h : Tallies es duty next none) (he : e.Drops) :
    Tallies (es ++ [e]) (fun a' => e.after next a' (duty a')) next none := by
  have hstops : ∀ a' mode k, e.after next a' (duty a') = some (mode, some k) ↔
      duty a' = some (mode, some k) ∧ ¬ e.Stops a' := by
    intro a' mode k
    cases e with
    | renewed a => by_cases ha : a = a' <;> simp [after, Stops, ha]
    | removed a => by_cases ha : a = a' <;> simp [after, Stops, ha]
    | silenced => simp [after, Stops]
    | _ => exact he.elim
  refine h.of_event (by rintro a k id rfl; exact he) (Nat.le_refl next)
    (fun a' mode k hduty => ?_)
    (fun a' mode k hduty hgoes => ⟨mode, (hstops a' mode k).mpr ⟨hduty, hgoes⟩⟩) (by simp)
  obtain ⟨hduty, hgoes⟩ := (hstops a' mode k).mp hduty
  have hquiet : ∀ last, e.heard a' last = last := by
    cases e with
    | renewed | removed => exact fun last => if_neg hgoes
    | silenced => exact fun last => rfl
    | _ => exact he.elim
  obtain ⟨hmode, hasked⟩ := h.running_concat hduty hquiet
  exact ⟨hmode, hasked, Or.inr ⟨⟨mode, hduty⟩, hgoes⟩⟩

theorem Tallies.told (h : Tallies es duty next none) (a : AccountId) (id : ℕ) :
    Tallies (es ++ [told a id]) duty next none := by
  refine h.of_event (by simp) (Nat.le_refl next) (fun a' mode k hduty => ?_)
    (fun a' mode k hduty _ => ⟨mode, hduty⟩) (by simp)
  have hquiet : ∀ last, (SenderEvent.told a id).heard a' last = last := fun last => rfl
  obtain ⟨hmode, hasked⟩ := h.running_concat hduty hquiet
  exact ⟨hmode, hasked, Or.inr ⟨⟨mode, hduty⟩, by simp [Stops]⟩⟩

/-- What was about to begin has begun. -/
theorem Tallies.began {k : ℕ} (h : Tallies es duty next (some (a, k))) (id : ℕ) :
    Tallies (es ++ [began a k id]) duty next none := by
  obtain ⟨hduty, hlt, hnew⟩ := h.launching a k rfl
  have hmem : ∀ {a' k' id'}, SenderEvent.began a' k' id' ∈ es ++ [SenderEvent.began a k id] →
      SenderEvent.began a' k' id' ∈ es ∨ a' = a ∧ k' = k ∧ id' = id := by
    simp
  constructor
  · intro a' mode k' hduty'
    obtain ⟨hmode, hasked, hor⟩ := h.running a' mode k' hduty'
    refine ⟨hmode, by rw [lastAsked_concat, hasked]; rfl, Or.inr ?_⟩
    rcases hor with hlaunch | ⟨id', hlive⟩
    · obtain ⟨rfl, rfl⟩ : a = a' ∧ k = k' := by simpa using hlaunch
      exact ⟨id, live_concat.mpr (Or.inl rfl)⟩
    · exact ⟨id', live_concat.mpr (Or.inr ⟨hlive, by simp [Stops]⟩)⟩
  · intro a' k' id' hlive
    rcases live_concat.mp hlive with hbegan | ⟨hlive, -⟩
    · obtain ⟨rfl, rfl, -⟩ : a = a' ∧ k = k' ∧ id = id' := by simpa using hbegan
      exact hduty
    · exact h.live a' k' id' hlive
  · simp
  · intro a' k' id' hbegan
    rcases hmem hbegan with hbegan | ⟨-, rfl, -⟩
    · exact h.number a' k' id' hbegan
    · exact hlt
  · intro a' k' id' id'' hbegan hbegan'
    rcases hmem hbegan with hbefore | ⟨rfl, rfl, rfl⟩
    · rcases hmem hbegan' with hbefore' | ⟨rfl, rfl, -⟩
      · exact h.unique a' k' id' id'' hbefore hbefore'
      · exact absurd hbefore (hnew id')
    · rcases hmem hbegan' with hbefore' | ⟨-, -, rfl⟩
      · exact absurd hbefore' (hnew id'')
      · rfl

end SenderEvent

end IlpConnector
