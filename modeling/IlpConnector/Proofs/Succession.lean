import IlpConnector.Proofs.Provenance
import IlpConnector.Proofs.Reregistration

/-!
# What outlasts a registration

A task that has been started for a sender or a receiver goes on with it, whatever becomes of the
account's registration meanwhile.  The numbers of registrations only go up, and who is replaced or
removed is kept as a former one, so under an account and a number the same registration is found
ever after (`Broadcaster.recalls_of_becomes`).
-/

namespace IlpConnector

/-! ## Lookups of registrations -/

namespace Registration

variable {α : Type} {of : α → Registration} {present : Option α} {former : List α}
  {account : AccountId} {serial : ℕ} {x y : α}

/-- What is found depends on the registrations only. -/
theorem map_find? (of : α → Registration) (present : Option α) (former : List α)
    (account : AccountId) (serial : ℕ) : (find? of present former account serial).map of
      = find? id (present.map of) (former.map of) account serial := by
  have hlist : (present.map of).toList ++ former.map of = (present.toList ++ former).map of := by
    cases present <;> rfl
  rw [find?, find?, hlist, List.find?_map]
  rfl

theorem map_replace (of : α → Registration) (former : List α) (x : α) :
    (replace of former x).map of = former.map of := by
  rw [replace, List.map_map]
  refine List.map_congr_left fun y _ => ?_
  dsimp only [Function.comp]
  split_ifs with h
  · exact h.symm
  · rfl

/-- What takes the place of something former is found there. -/
theorem find?_replace (hy : find? of present former account serial = some y) (hx : of y = of x)
    (hpresent : present.any (of · = of x) = false) :
    find? of present (replace of former x) account serial = some x := by
  have hcond : ∀ z, (decide ((of (if of z = of x then x else z)).peer = account)
        && decide ((of (if of z = of x then x else z)).serial = serial))
      = (decide ((of z).peer = account) && decide ((of z).serial = serial)) := by
    intro z
    split_ifs with h
    · rw [h]
    · rfl
  have hfound : former.find? (fun z => (of z).peer = account && (of z).serial = serial) = some y →
      (replace of former x).find? (fun z => (of z).peer = account && (of z).serial = serial)
        = some x := by
    intro h
    rw [replace, List.find?_map]
    simp only [Function.comp_def, hcond, h, Option.map_some, hx, if_true]
  cases present with
  | none => exact hfound hy
  | some z =>
    -- what is present belongs to another registration, so it is not what has been found
    have hne : of z ≠ of x := of_decide_eq_false hpresent
    unfold find? at hy ⊢
    rw [Option.toList_some, List.singleton_append, List.find?_cons] at hy ⊢
    split at hy
    · obtain rfl := Option.some.inj hy
      exact absurd hx hne
    · exact hfound hy

theorem map_find?_congr {present' : Option α} {former' : List α}
    (hpresent : present'.map of = present.map of) (hformer : former'.map of = former.map of) :
    (find? of present' former' account serial).map of
      = (find? of present former account serial).map of := by
  rw [map_find?, hpresent, hformer, ← map_find?]

/-- When an account gets something new, or has nothing any more, what was there before is found under
its number as ever, and all else too. -/
theorem map_find?_retired {get get' : AccountId → Option α} {former' : List α} {new : Option α}
    (hkept : ∀ a x, get a = some x → (of x).peer = a) (hnew : ∀ x ∈ new, (of x).serial ≠ serial)
    (hget : ∀ a, get' a = if account = a then new else get a)
    (hformer : former'.map of = ((get account).toList ++ former).map of) (a : AccountId) :
    (find? of (get' a) former' a serial).map of = (find? of (get a) former a serial).map of := by
  rw [map_find?, hformer, ← map_find?, hget]
  congr 1
  unfold find?
  rw [List.find?_append, List.find?_append, List.find?_append]
  split_ifs with ha
  · subst ha
    have hskip : new.toList.find? (fun x => (of x).peer = account && (of x).serial = serial)
        = none := by
      refine List.find?_eq_none.mpr fun x hx => ?_
      simp [hnew x (Option.mem_toList.mp hx)]
    rw [hskip, Option.none_or]
  · have hskip : (get account).toList.find? (fun x => (of x).peer = a && (of x).serial = serial)
        = none := by
      refine List.find?_eq_none.mpr fun x hx => ?_
      simp [hkept account x (Option.mem_toList.mp hx), ha]
    rw [hskip, Option.none_or]

end Registration

namespace Broadcaster

variable {b b' b'' : Broadcaster} {a account : AccountId} {serial : ℕ} {s s' : Sender}

/-! ## Senders of registrations -/

theorem registration_of_sender? (h : b.sender? account serial = some s) :
    s.peer = account ∧ s.serial = serial :=
  Registration.find?_eq_some h

/-- An account's own sender is the one of its registration. -/
theorem sender?_of_get? (h : b.senders.get? account = some s) (hpeer : s.peer = account) :
    b.sender? account s.serial = some s := by
  rw [sender?, h]
  exact Registration.find?_present hpeer

theorem receiver?_of_get? {r : Receiver} (h : b.receivers.get? account = some r)
    (hpeer : r.peer = account) : b.receiver? account r.serial = some r := by
  rw [receiver?, h]
  exact Registration.find?_present hpeer

theorem running?_eq_some_iff {number : ℕ} :
    b.running? account number = some s ↔
      b.senders.get? account = some s ∧ s.broadcast = some number := by
  rw [running?, Option.filter_eq_some_iff, decide_eq_true_eq]

theorem settings_withAnySender (b : Broadcaster) (s : Sender) :
    (b.withAnySender s).settings = b.settings := by
  unfold withAnySender
  split_ifs <;> rfl

theorem nextBroadcast_withAnySender (b : Broadcaster) (s : Sender) :
    (b.withAnySender s).nextBroadcast = b.nextBroadcast := by
  unfold withAnySender
  split_ifs <;> rfl

/-- A sender that is put in another's place is found there. -/
theorem sender?_withAnySender (h : b.sender? account serial = some s)
    (hs' : s'.toRegistration = s.toRegistration) :
    (b.withAnySender s').sender? account serial = some s' := by
  obtain ⟨hpeer, hserial⟩ := registration_of_sender? h
  have hpeer' : s'.peer = account := (congrArg Registration.peer hs').trans hpeer
  have hserial' : s'.serial = serial := (congrArg Registration.serial hs').trans hserial
  unfold withAnySender
  split_ifs with hpresent
  · rw [← hserial']
    refine sender?_of_get? ?_ hpeer'
    rw [withSender, hpeer']
    exact Dict.get?_insert_self _ _ _
  · rw [Bool.not_eq_true, hpeer'] at hpresent
    exact Registration.find?_replace h hs'.symm hpresent

/-- The sender that an account has is changed in its place. -/
theorem withAnySender_of_get? (h : b.senders.get? account = some s) (hpeer : s.peer = account)
    (hs' : s'.toRegistration = s.toRegistration) : b.withAnySender s' = b.withSender s' := by
  refine if_pos ?_
  rw [show s'.peer = account from (congrArg Registration.peer hs').trans hpeer, h, Option.any_some,
    hs']
  exact decide_eq_true rfl

/-- Putting another sender in one's place changes the account's sender, or a former one. -/
theorem withAnySender_cases (hkept : ∀ t, b.senders.get? account = some t → t.peer = account)
    (h : b.sender? account serial = some s) (hs' : s'.toRegistration = s.toRegistration) :
    (b.senders.get? account = some s ∧ b.withAnySender s' = b.withSender s') ∨
      s ∈ b.formerSenders ∧ b.withAnySender s' = { b with
        formerSenders := Registration.replace Sender.toRegistration b.formerSenders s' } := by
  obtain ⟨hpeer, hserial⟩ := registration_of_sender? h
  have hpeer' : s'.peer = account := (congrArg Registration.peer hs').trans hpeer
  unfold withAnySender
  rw [hpeer']
  split_ifs with hpresent
  · obtain ⟨t, ht, hreg⟩ := (Option.any_eq_true ..).mp hpresent
    have hreg : t.toRegistration = s.toRegistration := (of_decide_eq_true hreg).trans hs'
    have hfound := sender?_of_get? ht (hkept t ht)
    rw [show t.serial = serial from (congrArg Registration.serial hreg).trans hserial, h] at hfound
    exact Or.inl ⟨(Option.some.inj hfound) ▸ ht, rfl⟩
  · rcases Registration.find?_cases h with hs | hs
    · rw [hs] at hpresent
      exact absurd (decide_eq_true hs'.symm) hpresent
    · exact Or.inr ⟨hs, rfl⟩

theorem SendersOf.withAnySender {Q : AccountId → Prop} (hs : b.SendersOf Q)
    (h : b.sender? account serial = some s) (hs' : s'.toRegistration = s.toRegistration) :
    (b.withAnySender s').SendersOf Q := by
  rcases withAnySender_cases (fun t ht => (hs account t ht).1) h hs' with
    ⟨hget, heq⟩ | ⟨-, heq⟩ <;> rw [heq]
  · exact hs.withSender s' hget (congrArg Registration.peer hs')
  · exact hs

/-- The sender of a present or a former registration. -/
def HasSender (b : Broadcaster) (s : Sender) : Prop :=
  (∃ a, b.senders.get? a = some s) ∨ s ∈ b.formerSenders

theorem hasSender_of_sender? (h : b.sender? account serial = some s) : b.HasSender s :=
  (Registration.find?_cases h).imp (fun hs => ⟨account, hs⟩) id

/-- Every former sender's neighbour has an account with a property. -/
def FormersOf (b : Broadcaster) (Q : AccountId → Prop) : Prop :=
  ∀ s ∈ b.formerSenders, Q s.peer

variable {Q : AccountId → Prop}

theorem FormersOf.retire (h : b.FormersOf Q) (hs : b.SendersOf Q) (a : AccountId) :
    ∀ s ∈ b.retireSender a, Q s.peer := by
  intro s hmem
  rcases List.mem_append.mp hmem with hmem | hmem
  · obtain ⟨t, ht, rfl⟩ := Option.map_eq_some_iff.mp (Option.mem_toList.mp hmem)
    obtain ⟨hpeer, hQ⟩ := hs a t ht
    exact hpeer ▸ hQ
  · exact h s hmem

theorem FormersOf.register (h : b.FormersOf Q) (hs : b.SendersOf Q) (account : AccountSettings)
    (link : LinkRef) (id : TableId) : (b.register account link id).2.FormersOf Q := by
  unfold FormersOf Broadcaster.register
  split_ifs
  · exact h
  · exact h.retire hs account.id
  · exact h.retire hs account.id
  · exact h
  · exact h

theorem FormersOf.remove (h : b.FormersOf Q) (hs : b.SendersOf Q) (a : AccountId) :
    (b.remove a).FormersOf Q := by
  unfold FormersOf Broadcaster.remove
  dsimp only
  split_ifs
  · rw [select_snd]
    exact h.retire hs a
  · exact h.retire hs a

theorem FormersOf.receive (h : b.FormersOf Q) (operator : Option Address) (now : Instant)
    (a : AccountId) (p : Prepare) : (b.receive operator now a p).2.FormersOf Q := by
  have hupdate : ∀ r u, (b.update r operator u).2.FormersOf Q := by
    intro r u
    unfold FormersOf
    rw [update_snd, select_snd]
    exact h
  have hx := b.received operator now a p
  generalize b.receive operator now a p = x at hx ⊢
  cases hx with
  | switched | refused | obeyed => exact h
  | @updated u r _ _ _ _ _ hafter =>
    have hkept := hupdate r u
    rwa [hafter] at hkept
  | @late u r _ _ hafter =>
    have hkept := hupdate r u
    rwa [hafter] at hkept

/-- What a sender is replaced by has the same neighbour. -/
theorem FormersOf.replace (h : b.FormersOf Q) (hs : s ∈ b.formerSenders)
    (hs' : s'.toRegistration = s.toRegistration) :
    ∀ t ∈ Registration.replace Sender.toRegistration b.formerSenders s', Q t.peer := by
  intro t ht
  obtain ⟨t', ht', rfl⟩ := List.mem_map.mp ht
  split_ifs
  · exact congrArg Registration.peer hs' ▸ h s hs
  · exact h t' ht'

/-- What the next update of any sender does to the senders, and that it does nothing else. -/
theorem senders_nextUpdate (hs : b.SendersOf Q) (hf : b.FormersOf Q)
    (h : b.sender? account serial = some s) (accounts : AccountStore) (operator : Option Address) :
    let after := (b.nextUpdate s accounts operator).2
    after.SendersOf Q ∧ after.FormersOf Q ∧ after.receivers = b.receivers ∧
      after.table = b.table := by
  intro after
  refine ⟨hs.withAnySender h rfl, ?_⟩
  obtain ⟨-, heq⟩ | ⟨hmem, heq⟩ :
      (b.senders.get? account = some s ∧ after = b.withSender _) ∨ s ∈ b.formerSenders ∧ after = _ :=
    withAnySender_cases (fun t ht => (hs account t ht).1) h rfl
  · rw [heq]
    exact ⟨hf, rfl, rfl⟩
  · rw [heq]
    exact ⟨hf.replace hmem rfl, rfl, rfl⟩

/-! ## States of an exchange of routes -/

/-- What may happen to an exchange of routes: accounts are registered and removed, receivers hear
updates, routes are chosen anew, senders of present and of former registrations are changed in
whatever way, and the table may become any other one. -/
inductive Change : Broadcaster → Broadcaster → Prop where
  | step {b b' : Broadcaster} (h : Step b b') : Change b b'
  | learn {b : Broadcaster} (own : Option Address) (u : RouteUpdate) {a : AccountId} {r : Receiver}
      (hr : b.receivers.get? a = some r) : Change b (b.learn r own u).2
  | select {b : Broadcaster} (qs : List AddressPrefix) : Change b (b.select qs).2
  | sender {b : Broadcaster} {a : AccountId} {s : Sender} (s' : Sender)
      (hs : b.senders.get? a = some s) (h : s'.toRegistration = s.toRegistration) (number : ℕ) :
      Change b { b.withSender s' with nextBroadcast := number }
  | former {b : Broadcaster} (s : Sender) : Change b { b with
      formerSenders := Registration.replace Sender.toRegistration b.formerSenders s }
  | shutdown {b : Broadcaster} : Change b b.shutdown
  | table {b : Broadcaster} (table : ForwardingTable) : Change b { b with table }

/-- The states of an exchange of routes, whatever has happened. -/
inductive Reached : Broadcaster → Prop where
  | start (settings : RoutingSettings) (table : ForwardingTable) : Reached { settings, table }
  | change {b b' : Broadcaster} (h : Reached b) (hc : Change b b') : Reached b'

theorem sendersOf_step (h : b.SendersOf fun _ => True) (hstep : Step b b') :
    b'.SendersOf fun _ => True := by
  cases hstep with
  | register account link id => exact h.register trivial link id
  | update own u hr => exact h.update _ own u
  | remove a => exact h.remove a

/-- Every sender and every receiver is kept under its neighbour's account. -/
theorem Reached.inv (h : b.Reached) : b.Sound ∧ b.SendersOf fun _ => True := by
  induction h with
  | start settings table => exact ⟨fun a r hr => (by cases hr), fun a s hs => (by cases hs)⟩
  | change _ hc ih =>
    cases hc with
    | step hstep => exact ⟨sound_step ih.1 hstep, sendersOf_step ih.2 hstep⟩
    | learn own u hr => exact ⟨sound_learn ih.1 hr, ih.2⟩
    | select qs =>
      refine ⟨sound_select ih.1 qs, ?_⟩
      unfold SendersOf
      rw [senders_select]
      exact ih.2
    | sender s' hs h number =>
      exact ⟨ih.1, ih.2.withSender s' hs (congrArg Registration.peer h)⟩
    | former => exact ih
    | shutdown => exact ⟨ih.1, ih.2.shutdown⟩
    | table table => exact ih

theorem Reached.step (h : b.Reached) (hstep : Step b b') : b'.Reached :=
  h.change (.step hstep)

/-- What may come of an exchange of routes. -/
abbrev Becomes : Broadcaster → Broadcaster → Prop := Relation.ReflTransGen Change

theorem Reached.becomes (h : b.Reached) (hbecomes : b.Becomes b') : b'.Reached := by
  induction hbecomes with
  | refl => exact h
  | tail _ hc ih => exact ih.change hc

theorem becomes_withSender (hs : b.senders.get? a = some s)
    (h : s'.toRegistration = s.toRegistration) : b.Becomes (b.withSender s') :=
  .single (.sender s' hs h b.nextBroadcast)

theorem Reached.becomes_withAnySender (hb : b.Reached) (hs : b.sender? a serial = some s)
    (h : s'.toRegistration = s.toRegistration) : b.Becomes (b.withAnySender s') := by
  rcases withAnySender_cases (fun t ht => (hb.inv.2 a t ht).1) hs h with
    ⟨hget, heq⟩ | ⟨-, heq⟩ <;> rw [heq]
  · exact becomes_withSender hget h
  · exact .single (.former s')

theorem becomes_receive (b : Broadcaster) (operator : Option Address) (now : Instant)
    (a : AccountId) (p : Prepare) : b.Becomes (b.receive operator now a p).2 := by
  have hx := b.received operator now a p
  generalize b.receive operator now a p = x at hx ⊢
  cases hx with
  | switched | refused => exact .refl
  | @obeyed c s _ _ hs => exact .single (.sender _ hs (s.registration_obey _ _ c) _)
  | @updated u _ _ _ _ _ hr h =>
    have hafter : Change b _ := .step (.update operator u hr)
    rw [h] at hafter
    exact .single hafter
  | @late u _ _ hlate h =>
    have hafter : Change b _ := .step (.update operator u hlate.receiver)
    rw [h] at hafter
    exact .single hafter

/-! ## Registrations over time -/

/-- All registrations so far are found as before. -/
structure Recalls (b b' : Broadcaster) : Prop where
  serial : b.nextSerial ≤ b'.nextSerial
  sender : ∀ a serial, serial < b.nextSerial →
    (b'.sender? a serial).map Sender.toRegistration = (b.sender? a serial).map Sender.toRegistration
  receiver : ∀ a serial, serial < b.nextSerial →
    (b'.receiver? a serial).map Receiver.toRegistration
      = (b.receiver? a serial).map Receiver.toRegistration

theorem Recalls.refl (b : Broadcaster) : b.Recalls b := ⟨le_rfl, fun _ _ _ => rfl, fun _ _ _ => rfl⟩

theorem Recalls.trans (h : b.Recalls b') (h' : b'.Recalls b'') : b.Recalls b'' where
  serial := h.serial.trans h'.serial
  sender a serial hs := (h'.sender a serial (hs.trans_le h.serial)).trans (h.sender a serial hs)
  receiver a serial hs :=
    (h'.receiver a serial (hs.trans_le h.serial)).trans (h.receiver a serial hs)

/-- What is in its place belongs to the same registrations. -/
theorem Recalls.of_same (hserial : b.nextSerial ≤ b'.nextSerial)
    (hs : ∀ a, (b'.senders.get? a).map Sender.toRegistration
      = (b.senders.get? a).map Sender.toRegistration)
    (hformerSenders : b'.formerSenders.map Sender.toRegistration
      = b.formerSenders.map Sender.toRegistration)
    (hr : ∀ a, (b'.receivers.get? a).map Receiver.toRegistration
      = (b.receivers.get? a).map Receiver.toRegistration)
    (hformerReceivers : b'.formerReceivers = b.formerReceivers) : b.Recalls b' where
  serial := hserial
  sender a _ _ := Registration.map_find?_congr (hs a) hformerSenders
  receiver a _ _ := Registration.map_find?_congr (hr a) (congrArg _ hformerReceivers)

theorem map_retireSender (b : Broadcaster) (a : AccountId) :
    (b.retireSender a).map Sender.toRegistration
      = ((b.senders.get? a).toList ++ b.formerSenders).map Sender.toRegistration := by
  unfold retireSender
  cases b.senders.get? a <;> rfl

/-- A registration leaves an account's sender as it is, or puts a new one in its place, and likewise
its receiver. -/
theorem register_cases (b : Broadcaster) (account : AccountSettings) (link : LinkRef)
    (id : TableId) :
    let after := (b.register account link id).2
    b.nextSerial ≤ after.nextSerial ∧
    ((after.senders = b.senders ∧ after.formerSenders = b.formerSenders) ∨
      (after.senders
          = b.senders.insert account.id { peer := account.id, link, serial := b.nextSerial } ∧
        after.formerSenders = b.retireSender account.id)) ∧
    ((after.receivers = b.receivers ∧ after.formerReceivers = b.formerReceivers) ∨
      (after.receivers = b.receivers.insert account.id
          { peer := account.id, link, serial := b.nextSerial, tableId := id } ∧
        after.formerReceivers = b.retireReceiver account.id ∧
        b.nextSerial < after.nextSerial)) := by
  unfold register
  split_ifs
  · exact ⟨le_rfl, Or.inl ⟨rfl, rfl⟩, Or.inl ⟨rfl, rfl⟩⟩
  · exact ⟨Nat.le_succ _, Or.inr ⟨rfl, rfl⟩, Or.inr ⟨rfl, rfl, Nat.lt_succ_self _⟩⟩
  · exact ⟨Nat.le_succ _, Or.inr ⟨rfl, rfl⟩, Or.inl ⟨rfl, rfl⟩⟩
  · exact ⟨Nat.le_succ _, Or.inl ⟨rfl, rfl⟩, Or.inr ⟨rfl, rfl, Nat.lt_succ_self _⟩⟩
  · exact ⟨Nat.le_succ _, Or.inl ⟨rfl, rfl⟩, Or.inl ⟨rfl, rfl⟩⟩

theorem nextSerial_remove (b : Broadcaster) (account : AccountId) :
    (b.remove account).nextSerial = b.nextSerial := by
  unfold remove
  dsimp only
  split_ifs
  · rw [select_snd]
  · rfl

theorem get?_insert_eq_ite {ν : Type} (d : Dict AccountId ν) (account : AccountId) (v : ν)
    (a : AccountId) : (d.insert account v).get? a = if account = a then some v else d.get? a := by
  rw [Dict.get?_insert]
  simp only [keyText_eq_iff]

theorem get?_erase_eq_ite {ν : Type} (d : Dict AccountId ν) (account a : AccountId) :
    (d.erase account).get? a = if account = a then none else d.get? a := by
  rw [Dict.get?_erase]
  simp only [keyText_eq_iff]

section

variable (hb : b.Sound) (hs : b.SendersOf fun _ => True)
include hb hs

theorem recalls_register (account : AccountSettings) (link : LinkRef) (id : TableId) :
    b.Recalls (b.register account link id).2 := by
  obtain ⟨hserial, hsenders, hreceivers⟩ := b.register_cases account link id
  refine ⟨hserial, fun a serial hlt => ?_, fun a serial hlt => ?_⟩
  · obtain ⟨hsame, hformer⟩ | ⟨hnew, hformer⟩ := hsenders
    · rw [sender?, hsame, hformer]
      rfl
    · refine Registration.map_find?_retired (fun a s hget => (hs a s hget).1) ?_
        (fun a => hnew ▸ get?_insert_eq_ite _ _ _ a) ?_ a
      · intro s hs
        obtain rfl := Option.mem_some_iff.mp hs
        exact hlt.ne'
      · rw [hformer, map_retireSender]
  · obtain ⟨hsame, hformer⟩ | ⟨hnew, hformer, -⟩ := hreceivers
    · rw [receiver?, hsame, hformer]
      rfl
    · refine Registration.map_find?_retired (fun a r hget => (hb a r hget).1) ?_
        (fun a => hnew ▸ get?_insert_eq_ite _ _ _ a) ?_ a
      · intro r hr
        obtain rfl := Option.mem_some_iff.mp hr
        exact hlt.ne'
      · rw [hformer, retireReceiver]

theorem recalls_remove (account : AccountId) : b.Recalls (b.remove account) := by
  have hsender : ∀ (b' : Broadcaster) a serial, b'.senders = b.senders.erase account →
      b'.formerSenders = b.retireSender account →
      (b'.sender? a serial).map Sender.toRegistration
        = (b.sender? a serial).map Sender.toRegistration := by
    intro b' a serial hget hformer
    refine Registration.map_find?_retired (fun a s hget => (hs a s hget).1) ?_
      (fun a => hget ▸ get?_erase_eq_ite _ _ a) ?_ a
    · nofun
    · rw [hformer, map_retireSender]
  unfold remove
  dsimp only
  split_ifs
  · rw [select_snd]
    refine ⟨le_rfl, fun a serial _ => hsender _ a serial rfl rfl, fun a serial _ => ?_⟩
    refine Registration.map_find?_retired (fun a r hget => (hb a r hget).1) ?_
      (fun a => get?_erase_eq_ite _ _ a) rfl a
    nofun
  · exact ⟨le_rfl, fun a serial _ => hsender _ a serial rfl rfl, fun _ _ _ => rfl⟩

omit hs in
theorem recalls_learn {r : Receiver} (hr : b.receivers.get? a = some r) (own : Option Address)
    (u : RouteUpdate) : b.Recalls (b.learn r own u).2 := by
  refine .of_same le_rfl (fun _ => rfl) rfl (fun a' => ?_) rfl
  rw [receivers_learn, (hb a r hr).1, get?_insert_eq_ite]
  split_ifs with ha
  · rw [← ha, hr]
    exact congrArg some (Receiver.registration_apply _)
  · rfl

omit hb in
theorem recalls_withSender (h : b.senders.get? a = some s)
    (hs' : s'.toRegistration = s.toRegistration) (number : ℕ) :
    b.Recalls { b.withSender s' with nextBroadcast := number } := by
  refine .of_same le_rfl (fun a' => ?_) rfl (fun _ => rfl) rfl
  have hpeer : s'.peer = a := (congrArg Registration.peer hs').trans (hs a s h).1
  change ((b.senders.insert s'.peer s').get? a').map _ = _
  rw [hpeer, get?_insert_eq_ite]
  split_ifs with ha
  · rw [← ha, h]
    exact congrArg some hs'
  · rfl

theorem recalls_change (hc : Change b b') : b.Recalls b' := by
  cases hc with
  | step hstep =>
    cases hstep with
    | register account link id => exact recalls_register hb hs account link id
    | update own u hr =>
      refine (recalls_learn hb hr own u).trans ?_
      rw [update_snd, select_snd]
      exact .of_same le_rfl (fun _ => rfl) rfl (fun _ => rfl) rfl
    | remove a => exact recalls_remove hb hs a
  | learn own u hr => exact recalls_learn hb hr own u
  | select qs =>
    rw [select_snd]
    exact .of_same le_rfl (fun _ => rfl) rfl (fun _ => rfl) rfl
  | sender s' h hs' number => exact recalls_withSender hs h hs' number
  | former s => exact .of_same le_rfl (fun _ => rfl) (Registration.map_replace ..) (fun _ => rfl) rfl
  | shutdown =>
    refine .of_same le_rfl (fun a => ?_) rfl (fun _ => rfl) rfl
    change ((b.senders.mapValues fun _ s => s.stop).get? a).map _ = _
    rw [Dict.get?_mapValues, Option.map_map]
    rfl
  | table table => exact .of_same le_rfl (fun _ => rfl) rfl (fun _ => rfl) rfl

end

/-- Whatever happens to an exchange of routes, the registrations so far are found as before. -/
theorem recalls_of_becomes (h : b.Reached) (hbecomes : b.Becomes b') : b.Recalls b' := by
  induction hbecomes with
  | refl => exact .refl b
  | tail hrun hc ih =>
    obtain ⟨hsound, hsenders⟩ := (h.becomes hrun).inv
    exact ih.trans (recalls_change hsound hsenders hc)

theorem serial_lt_of_learn (hb : b.Sound)
    (h : ∀ a r, b.receivers.get? a = some r → r.serial < b.nextSerial) {r r' : Receiver}
    {a' : AccountId} (hr : b.receivers.get? a = some r) (own : Option Address) (u : RouteUpdate)
    (hr' : (b.learn r own u).2.receivers.get? a' = some r') : r'.serial < b.nextSerial := by
  rw [receivers_learn, (hb a r hr).1, get?_insert_eq_ite] at hr'
  split_ifs at hr'
  · obtain rfl := Option.some.inj hr'
    rw [Receiver.registration_apply]
    exact h a r hr
  · exact h a' r' hr'

/-- The numbers of receivers have been given out. -/
theorem Reached.serial_lt (h : b.Reached) :
    ∀ a r, b.receivers.get? a = some r → r.serial < b.nextSerial := by
  induction h with
  | start settings table => exact nofun
  | change hb hc ih =>
    intro a r hr
    cases hc with
    | step hstep =>
      cases hstep with
      | register account link id =>
        obtain ⟨hserial, -, ⟨hsame, -⟩ | ⟨hnew, -, hlt⟩⟩ := register_cases _ account link id
        · rw [hsame] at hr
          exact (ih a r hr).trans_le hserial
        · rw [hnew, get?_insert_eq_ite] at hr
          split_ifs at hr
          · obtain rfl := Option.some.inj hr
            exact hlt
          · exact (ih a r hr).trans_le hserial
      | update own u hr' =>
        rw [update_snd, select_snd] at hr ⊢
        exact serial_lt_of_learn hb.inv.1 ih hr' own u hr
      | remove a' =>
        rw [receivers_remove, get?_erase_eq_ite] at hr
        split_ifs at hr
        rw [nextSerial_remove]
        exact ih a r hr
    | learn own u hr' => exact serial_lt_of_learn hb.inv.1 ih hr' own u hr
    | select qs =>
      rw [select_snd] at hr ⊢
      exact ih a r hr
    | sender | former | shutdown | table => exact ih a r hr

/-- The receiver that an account has is found ever after, and belongs to the same registration. -/
theorem receiver?_of_becomes (h : b.Reached) {r : Receiver} (hr : b.receivers.get? a = some r)
    (hbecomes : b.Becomes b') :
    ∃ r', b'.receiver? a r.serial = some r' ∧ r'.toRegistration = r.toRegistration := by
  have hfound := receiver?_of_get? hr (h.inv.1 a r hr).1
  have hkept := (recalls_of_becomes h hbecomes).receiver a r.serial (h.serial_lt a r hr)
  rw [hfound, Option.map_some] at hkept
  exact Option.map_eq_some_iff.mp hkept

end Broadcaster

end IlpConnector
