import IlpConnector.Proofs.Selection
import Mathlib.Logic.Relation

/-!
# The best route is always in use

Registering a new account, handling an update through a registered receiver and removing an account
each keep a chosen prefix chosen (`Broadcaster.chosen_register`, `Broadcaster.chosen_update`,
`Broadcaster.chosen_remove`) and the node's own routes in place.  So the forwarding table of an
exchange that began with own routes only always holds, for every other prefix, the best of what the
receivers have learned (`RouteExchange.best_route_of_run`).

An update is followed by a choice for the prefixes it touches only.  For a prefix it does not touch,
the neighbour's offer and the table still agree (`Learning.Matched`), and the other receivers are as
before.
-/

namespace IlpConnector

namespace Broadcaster

variable {b : Broadcaster} {p : AddressPrefix} {a : AccountId} {r : Receiver}
  {own : Option Address} {u : RouteUpdate}

/-! ## An update before routes are chosen anew -/

/-- What an update about another table drops. -/
def dropped (r : Receiver) (u : RouteUpdate) : List AddressPrefix :=
  if r.tableId = u.tableId then [] else r.learned.keys

theorem update_of_learn_error {g : EpochGap} (h : (b.learn r own u).1 = .error g) :
    b.update r own u = (.error g, ((b.learn r own u).2.select (ordered (dropped r u))).2) := by
  have hlearn : b.learn r own u = (.error g, (b.learn r own u).2) := Prod.ext h rfl
  unfold update
  rw [hlearn]
  rfl

theorem update_of_learn_ok {changed : List AddressPrefix} (h : (b.learn r own u).1 = .ok changed) :
    let selected := (b.learn r own u).2.select (ordered (dropped r u ++ changed))
    b.update r own u = (.ok (ordered (changed ++ selected.1)), selected.2) := by
  have hlearn : b.learn r own u = (.ok changed, (b.learn r own u).2) := Prod.ext h rfl
  unfold update
  rw [hlearn]
  rfl

theorem update_snd (b : Broadcaster) (r : Receiver) (own : Option Address) (u : RouteUpdate) :
    (b.update r own u).2 = ((b.learn r own u).2.select
      (ordered (dropped r u ++ (r.apply b.table own u).1.changed))).2 := by
  cases h : (r.apply b.table own u).2 with
  | error g => rw [Receiver.changed_of_apply_error h, List.append_nil, update_of_learn_error h]
  | ok ps => rw [Receiver.changed_of_apply_ok h, update_of_learn_ok h]

theorem table_learn (b : Broadcaster) (r : Receiver) (own : Option Address) (u : RouteUpdate) :
    (b.learn r own u).2.table = (r.apply b.table own u).1.table := rfl

theorem receivers_learn (b : Broadcaster) (r : Receiver) (own : Option Address)
    (u : RouteUpdate) : (b.learn r own u).2.receivers
      = b.receivers.insert r.peer (r.apply b.table own u).1.receiver := rfl

/-- An update changes nothing of what other accounts' receivers have learned. -/
theorem learned_learn_of_ne {x : Route} (ha : a ≠ r.peer) :
    (b.learn r own u).2.Learned a p x ↔ b.Learned a p x := by
  unfold Learned
  rw [receivers_learn, Dict.get?_insert_of_ne _ _ (Ne.symm ha)]

theorem learned_learn_self {x : Route} : (b.learn r own u).2.Learned r.peer p x ↔
    (r.apply b.table own u).1.receiver.learned.get? p = some x := by
  unfold Learned
  rw [receivers_learn, Dict.get?_insert_self]
  simp

theorem sound_learn (hb : b.Sound) (hr : b.receivers.get? a = some r) :
    (b.learn r own u).2.Sound := by
  intro a' r' hr'
  obtain ⟨hpeer, hsound⟩ := hb a r hr
  rw [receivers_learn] at hr'
  by_cases ha : r.peer = a'
  · subst ha
    rw [Dict.get?_insert_self, Option.some.injEq] at hr'
    rw [← hr']
    exact ⟨Receiver.peer_apply b.table, Receiver.sound_apply hsound⟩
  · rw [Dict.get?_insert_of_ne _ _ ha] at hr'
    exact hb a' r' hr'

/-- If a prefix has its best route, an update finds it matched. -/
theorem matched_opened (hb : b.Sound) (hr : b.receivers.get? a = some r) (h : b.Chosen p) :
    (r.opened b.table u).Matched p := by
  have hpeer := (hb a r hr).1
  unfold Receiver.opened
  split
  · constructor
    · intro e he hhop
      obtain ⟨r', hr', hx⟩ := h.backed e he
      rw [show e.nextHop = r.peer from hhop, hpeer, hr, Option.some.injEq] at hr'
      exact hr' ▸ hx
    · exact fun x hx => h.best a x ⟨r, hr, hx⟩
  · exact Learning.matched_adopt _ _ _

/-- What turning to another table takes away is among what is dropped. -/
theorem get?_opened (hb : b.Sound) (hr : b.receivers.get? a = some r) (h : b.Chosen p)
    (hp : p ∉ dropped r u) : (r.opened b.table u).table.get? p = b.table.get? p := by
  have hpeer := (hb a r hr).1
  unfold Receiver.opened
  unfold dropped at hp
  split_ifs at hp ⊢ with hid
  · rfl
  · refine ForwardingTable.get?_withdrawVia_of_notMem _ fun hvia => hp ?_
    obtain ⟨e, he, hhop⟩ := (ForwardingTable.mem_targetsVia _).mp hvia
    obtain ⟨r', hr', hx⟩ := h.backed e he
    rw [show e.nextHop = r.peer from hhop, hpeer, hr, Option.some.injEq] at hr'
    exact Dict.mem_keys.mpr ⟨e, hr' ▸ hx⟩

/-- Looking at an update adds no route. -/
theorem get?_of_opened {table : ForwardingTable} {e : Route}
    (he : (r.opened table u).table.get? p = some e) : table.get? p = some e := by
  unfold Receiver.opened at he
  split at he
  · exact he
  · exact (Learning.get?_adopt.mp he).1

/-- A prefix that an update does not touch keeps its best route. -/
theorem chosen_learn (hb : b.Sound) (hr : b.receivers.get? a = some r) (h : b.Chosen p)
    (hp : p ∉ dropped r u) (hp' : p ∉ (r.apply b.table own u).1.changed) :
    (b.learn r own u).2.Chosen p := by
  have hpeer := (hb a r hr).1
  have htracks := r.tracks_apply b.table own u p
  have hmatched := htracks.matched hp' (matched_opened hb hr h)
  have hentry : (b.learn r own u).2.table.get? p = b.table.get? p := by
    rw [table_learn, htracks.entry hp']
    exact get?_opened hb hr h hp
  constructor
  · intro e he
    by_cases hhop : e.nextHop = r.peer
    · rw [hhop]
      exact learned_learn_self.mpr (hmatched.backed e he (hhop.trans (Receiver.peer_apply _).symm))
    · exact (learned_learn_of_ne hhop).mpr (h.backed e (hentry ▸ he))
  · intro a' x hx
    by_cases ha : a' = r.peer
    · subst ha
      exact hmatched.best x (learned_learn_self.mp hx)
    · rw [hentry]
      exact h.best a' x ((learned_learn_of_ne ha).mp hx)

/-- After an update, a prefix that had its best route does not lead to an account without a
receiver. -/
theorem isOwn_learn (hb : b.Sound) (hr : b.receivers.get? a = some r) (h : b.Chosen p) :
    (b.learn r own u).2.isOwn p = false := by
  have hpeer := (hb a r hr).1
  rw [Bool.eq_false_iff, ne_eq, isOwn_iff]
  rintro ⟨e, he, hnone⟩
  rw [receivers_learn] at hnone
  by_cases hhop : r.peer = e.nextHop
  · rw [hhop, Dict.get?_insert_self] at hnone
    cases hnone
  · rw [Dict.get?_insert_of_ne _ _ hhop] at hnone
    rcases (r.tracks_apply b.table own u p).origin e he with he' | he'
    · obtain ⟨r', hr', -⟩ := h.backed e (get?_of_opened he')
      rw [hnone] at hr'
      cases hr'
    · exact hhop (Receiver.peer_opened.symm.trans he'.symm)

/-! ## What each operation keeps -/

theorem sound_update (hb : b.Sound) (hr : b.receivers.get? a = some r) :
    (b.update r own u).2.Sound := by
  rw [update_snd]
  exact sound_select (sound_learn hb hr) _

theorem receivers_update : (b.update r own u).2.receivers
    = b.receivers.insert r.peer (r.apply b.table own u).1.receiver := by
  rw [update_snd, receivers_select, receivers_learn]

/-- The best route stays in use over an update. -/
theorem chosen_update (hb : b.Sound) (hr : b.receivers.get? a = some r) (h : b.Chosen p) :
    (b.update r own u).2.Chosen p := by
  rw [update_snd]
  refine chosen_select (sound_learn hb hr) (isOwn_learn hb hr h) ?_
  rw [mem_ordered, List.mem_append]
  by_cases hp : p ∈ dropped r u
  · exact Or.inl (Or.inl hp)
  · by_cases hp' : p ∈ (r.apply b.table own u).1.changed
    · exact Or.inl (Or.inr hp')
    · exact Or.inr (chosen_learn hb hr h hp hp')

/-- A route without a path to an account without a receiver stays over an update. -/
theorem own_update (hb : b.Sound) (hr : b.receivers.get? a = some r) {e : Route}
    (he : b.table.get? p = some e) (hpath : e.path = [])
    (hown : b.receivers.get? e.nextHop = none) : (b.update r own u).2.table.get? p = some e := by
  have hpeer := (hb a r hr).1
  have hne : e.nextHop ≠ r.peer := by
    intro hhop
    rw [hhop, hpeer, hr] at hown
    cases hown
  have hopened : (r.opened b.table u).table.get? p = some e := by
    unfold Receiver.opened
    split
    · exact he
    · exact Learning.get?_adopt.mpr ⟨he, hne⟩
  have hlearn : (b.learn r own u).2.table.get? p = some e :=
    (r.tracks_apply b.table own u p).kept e hopened hpath (by rwa [Receiver.peer_opened])
  have hisOwn : (b.learn r own u).2.isOwn p = true := by
    refine isOwn_iff.mpr ⟨e, hlearn, ?_⟩
    rw [receivers_learn, Dict.get?_insert_of_ne _ _ (Ne.symm hne)]
    exact hown
  rw [update_snd, get?_select_of_isOwn (sound_learn hb hr) _ hisOwn]
  exact hlearn

/-! ### Registering an account -/

theorem table_register (b : Broadcaster) (account : AccountSettings) (link : LinkRef)
    (id : TableId) : (b.register account link id).2.table = b.table := by
  unfold register
  split_ifs <;> rfl

variable {link : LinkRef}

/-- Registering gives the account a new receiver, or none. -/
theorem receivers_register (b : Broadcaster) (account : AccountSettings) (link : LinkRef)
    (id : TableId) :
    (b.register account link id).2.receivers = b.receivers.insert account.id
        { peer := account.id, link, serial := b.nextSerial, tableId := id } ∨
      (b.register account link id).2.receivers = b.receivers := by
  unfold register
  split_ifs
  · exact Or.inr rfl
  · exact Or.inl rfl
  · exact Or.inr rfl
  · exact Or.inl rfl
  · exact Or.inr rfl

theorem sound_register (hb : b.Sound) (account : AccountSettings) (link : LinkRef)
    (id : TableId) : (b.register account link id).2.Sound := by
  intro a r hr
  rcases receivers_register b account link id with h | h <;> rw [h] at hr
  · by_cases ha : account.id = a
    · subst ha
      rw [Dict.get?_insert_self, Option.some.injEq] at hr
      subst hr
      exact ⟨rfl, fun p x hx => by simp at hx⟩
    · rw [Dict.get?_insert_of_ne _ _ ha] at hr
      exact hb a r hr
  · exact hb a r hr

/-- A receiver that is new has learned nothing yet, and takes no other one's place. -/
theorem learned_register {account : AccountSettings} {id : TableId}
    (hnew : b.receivers.get? account.id = none) {x : Route} :
    (b.register account link id).2.Learned a p x ↔ b.Learned a p x := by
  unfold Learned
  rcases receivers_register b account link id with h | h <;> rw [h]
  by_cases ha : account.id = a
  · subst ha
    simp [hnew]
  · rw [Dict.get?_insert_of_ne _ _ ha]

theorem chosen_register {account : AccountSettings} {id : TableId}
    (hnew : b.receivers.get? account.id = none) (h : b.Chosen p) :
    (b.register account link id).2.Chosen p := by
  constructor
  · intro e he
    rw [table_register] at he
    exact (learned_register hnew).mpr (h.backed e he)
  · intro a x hx
    rw [table_register]
    exact h.best a x ((learned_register hnew).mp hx)

/-! ### Removing an account -/

/-- An account without its sender, its receiver and their routes, before routes are chosen anew. -/
def cutOff (b : Broadcaster) (a : AccountId) : Broadcaster :=
  { b with
    senders := b.senders.erase a
    formerSenders := b.retireSender a
    receivers := b.receivers.erase a
    formerReceivers := b.retireReceiver a
    table := (b.table.withdrawVia a).2 }

/-- An account without a receiver loses its sender only; with a receiver, its routes go, and what
they were for is chosen anew. -/
theorem remove_eq (b : Broadcaster) (a : AccountId) :
    (b.receivers.get? a = none ∧ (b.remove a).receivers = b.receivers ∧
        (b.remove a).table = b.table) ∨
      ((∃ r, b.receivers.get? a = some r) ∧
        b.remove a = ((b.cutOff a).select (b.table.targetsVia a)).2) := by
  unfold remove
  dsimp only
  split_ifs with hc
  · exact Or.inr ⟨Dict.contains_iff.mp hc, rfl⟩
  · refine Or.inl ⟨?_, rfl, rfl⟩
    rw [Dict.contains, Option.not_isSome_iff_eq_none] at hc
    exact hc

theorem sound_erase (hb : b.Sound) {b' : Broadcaster} (h : b'.receivers = b.receivers.erase a) :
    b'.Sound := by
  intro a' r hr
  rw [h] at hr
  by_cases ha : a = a'
  · subst ha
    simp at hr
  · rw [Dict.get?_erase_of_ne _ ha] at hr
    exact hb a' r hr

theorem receivers_remove (b : Broadcaster) (a : AccountId) :
    (b.remove a).receivers = b.receivers.erase a := by
  rcases remove_eq b a with ⟨hnone, hrec, -⟩ | ⟨-, heq⟩
  · rw [hrec, Dict.erase_of_get?_eq_none hnone]
  · rw [heq, receivers_select]
    rfl

theorem sound_remove (hb : b.Sound) (a : AccountId) : (b.remove a).Sound :=
  sound_erase hb (receivers_remove b a)

/-- The best route stays in use when an account is removed, or the next best takes its place. -/
theorem chosen_remove (hb : b.Sound) (a : AccountId) (h : b.Chosen p) : (b.remove a).Chosen p := by
  rcases remove_eq b a with ⟨-, hrec, htable⟩ | ⟨-, heq⟩
  · exact h.congr (by rw [htable]) hrec
  · rw [heq]
    set b' := b.cutOff a with hb'
    have hlearned : ∀ {a' q x}, a ≠ a' → (b'.Learned a' q x ↔ b.Learned a' q x) := by
      intro a' q x ha
      unfold Learned
      rw [show b'.receivers = b.receivers.erase a from rfl, Dict.get?_erase_of_ne _ ha]
    have hbacked : ∀ e, b'.table.get? p = some e → b'.Learned e.nextHop p e := by
      intro e he
      obtain ⟨he, hhop⟩ := (ForwardingTable.get?_withdrawVia _).mp he
      exact (hlearned (Ne.symm hhop)).mpr (h.backed e he)
    refine chosen_select (sound_erase hb rfl) ?_ ?_
    · rw [Bool.eq_false_iff, ne_eq, isOwn_iff]
      rintro ⟨e, he, hnone⟩
      obtain ⟨r, hr, -⟩ := hbacked e he
      rw [hnone] at hr
      cases hr
    · by_cases hp : p ∈ b.table.targetsVia a
      · exact Or.inl hp
      · refine Or.inr ⟨hbacked, fun a' x hx => ?_⟩
        have ha : a ≠ a' := by
          rintro rfl
          obtain ⟨r, hr, -⟩ := hx
          rw [show b'.receivers = b.receivers.erase a from rfl, Dict.get?_erase_self] at hr
          cases hr
        rw [show b'.table.get? p = b.table.get? p from
          ForwardingTable.get?_withdrawVia_of_notMem _ hp]
        exact h.best a' x ((hlearned ha).mp hx)

/-- A route to an account without a receiver stays when an account is removed. -/
theorem own_remove (hb : b.Sound) (a : AccountId) {e : Route} (he : b.table.get? p = some e)
    (hown : b.receivers.get? e.nextHop = none) : (b.remove a).table.get? p = some e := by
  rcases remove_eq b a with ⟨-, -, htable⟩ | ⟨⟨r, hr⟩, heq⟩
  · rw [htable]
    exact he
  · have hne : e.nextHop ≠ a := by
      rintro rfl
      rw [hown] at hr
      cases hr
    have he' : (b.table.withdrawVia a).2.get? p = some e :=
      (ForwardingTable.get?_withdrawVia _).mpr ⟨he, hne⟩
    rw [heq, get?_select_of_isOwn (sound_erase hb rfl)]
    · exact he'
    · refine isOwn_iff.mpr ⟨e, he', ?_⟩
      rw [show (b.cutOff a).receivers = b.receivers.erase a from rfl,
        Dict.get?_erase_of_ne _ (Ne.symm hne)]
      exact hown

end Broadcaster

/-! ## Exchanges of routes -/

/-- A broadcaster, and the accounts that were registered and not removed since. -/
structure RouteExchange where
  broadcaster : Broadcaster
  registered : List AccountId := []

namespace RouteExchange

/-- One thing that happens to an exchange.  Accounts are registered once, until they are removed,
and those to which the node's own routes of the start lead never get a receiver. -/
inductive Step (start : ForwardingTable) : RouteExchange → RouteExchange → Prop where
  | register {x : RouteExchange} (account : AccountSettings) (link : LinkRef) (id : TableId)
      (hnew : account.id ∉ x.registered)
      (hown : ∀ p e, start.get? p = some e →
        (x.broadcaster.register account link id).2.receivers.get? e.nextHop = none) :
      Step start x ⟨(x.broadcaster.register account link id).2, account.id :: x.registered⟩
  | update {x : RouteExchange} (own : Option Address) (u : RouteUpdate) {a : AccountId}
      {r : Receiver} (hr : x.broadcaster.receivers.get? a = some r) :
      Step start x ⟨(x.broadcaster.update r own u).2, x.registered⟩
  | remove {x : RouteExchange} (a : AccountId) :
      Step start x ⟨x.broadcaster.remove a, x.registered.filter (· ≠ a)⟩

/-- A broadcaster without receivers yet, whose table has own routes only. -/
structure Begins (b : Broadcaster) : Prop where
  receivers : b.receivers = ∅
  own : ∀ p e, b.table.get? p = some e → ∃ a secret, e = Route.own p a secret

/-- What is always so in an exchange that began with these own routes. -/
structure Inv (start : ForwardingTable) (x : RouteExchange) : Prop where
  sound : x.broadcaster.Sound
  registered : ∀ a r, x.broadcaster.receivers.get? a = some r → a ∈ x.registered
  noReceiver : ∀ p e, start.get? p = some e → x.broadcaster.receivers.get? e.nextHop = none
  own : ∀ p e, start.get? p = some e → x.broadcaster.table.get? p = some e
  chosen : ∀ p, start.get? p = none → x.broadcaster.Chosen p

variable {x y : RouteExchange}

theorem inv_begin {b : Broadcaster} (hb : Begins b) : Inv b.table ⟨b, []⟩ := by
  have hnone : ∀ a r, b.receivers.get? a ≠ some r := by
    intro a r
    rw [hb.receivers]
    simp
  refine ⟨fun a r hr => absurd hr (hnone a r), fun a r hr => absurd hr (hnone a r), fun p e _ => ?_,
    fun p e he => he, fun p hp => ⟨fun e he => ?_, fun a y hy => ?_⟩⟩
  · exact Option.eq_none_iff_forall_ne_some.mpr (hnone e.nextHop)
  · rw [show b.table.get? p = some e from he] at hp
    cases hp
  · obtain ⟨r, hr, -⟩ := hy
    exact absurd hr (hnone a r)

theorem Inv.of_register {start : ForwardingTable} (hx : Inv start x) (account : AccountSettings)
    (link : LinkRef) (id : TableId) (hnew : account.id ∉ x.registered)
    (hown : ∀ p e, start.get? p = some e →
      (x.broadcaster.register account link id).2.receivers.get? e.nextHop = none) :
    Inv start ⟨(x.broadcaster.register account link id).2, account.id :: x.registered⟩ := by
  have hnone : x.broadcaster.receivers.get? account.id = none :=
    Option.eq_none_iff_forall_ne_some.mpr fun r hr => hnew (hx.registered _ r hr)
  refine ⟨Broadcaster.sound_register hx.sound account link id, fun a r hr => ?_, hown,
    fun p e he => ?_, fun p hp => Broadcaster.chosen_register hnone (hx.chosen p hp)⟩
  · rcases Broadcaster.receivers_register x.broadcaster account link id with h | h <;>
      dsimp only at hr <;> rw [h] at hr
    · by_cases ha : account.id = a
      · exact ha ▸ List.mem_cons_self
      · rw [Dict.get?_insert_of_ne _ _ ha] at hr
        exact List.mem_cons_of_mem _ (hx.registered a r hr)
    · exact List.mem_cons_of_mem _ (hx.registered a r hr)
  · dsimp only
    rw [Broadcaster.table_register]
    exact hx.own p e he

theorem Inv.of_update {start : ForwardingTable}
    (hpath : ∀ p e, start.get? p = some e → e.path = []) (hx : Inv start x) (own : Option Address)
    (u : RouteUpdate) {a : AccountId} {r : Receiver}
    (hr : x.broadcaster.receivers.get? a = some r) :
    Inv start ⟨(x.broadcaster.update r own u).2, x.registered⟩ := by
  have hpeer := (hx.sound a r hr).1
  have hrec : ∀ a', a' ≠ a → (x.broadcaster.update r own u).2.receivers.get? a'
      = x.broadcaster.receivers.get? a' := by
    intro a' ha
    rw [Broadcaster.receivers_update, hpeer, Dict.get?_insert_of_ne _ _ (Ne.symm ha)]
  refine ⟨Broadcaster.sound_update hx.sound hr, fun a' r' hr' => ?_, fun p e he => ?_,
    fun p e he => Broadcaster.own_update hx.sound hr (hx.own p e he) (hpath p e he)
      (hx.noReceiver p e he),
    fun p hp => Broadcaster.chosen_update hx.sound hr (hx.chosen p hp)⟩
  · by_cases ha : a' = a
    · exact ha ▸ hx.registered a r hr
    · exact hx.registered a' r' ((hrec a' ha).symm.trans hr')
  · have hne : e.nextHop ≠ a := by
      intro ha
      rw [← ha, hx.noReceiver p e he] at hr
      cases hr
    exact (hrec _ hne).trans (hx.noReceiver p e he)

theorem Inv.of_remove {start : ForwardingTable} (hx : Inv start x) (a : AccountId) :
    Inv start ⟨x.broadcaster.remove a, x.registered.filter (· ≠ a)⟩ := by
  have hrec : ∀ a', (x.broadcaster.remove a).receivers.get? a'
      = if a = a' then none else x.broadcaster.receivers.get? a' := by
    intro a'
    rw [Broadcaster.receivers_remove, Dict.get?_erase]
    simp only [keyText_eq_iff]
  refine ⟨Broadcaster.sound_remove hx.sound a, fun a' r hr => ?_, fun p e he => ?_,
    fun p e he => Broadcaster.own_remove hx.sound a (hx.own p e he) (hx.noReceiver p e he),
    fun p hp => Broadcaster.chosen_remove hx.sound a (hx.chosen p hp)⟩
  · dsimp only at hr
    rw [hrec] at hr
    split_ifs at hr with ha
    exact List.mem_filter.mpr ⟨hx.registered a' r hr, by simpa using Ne.symm ha⟩
  · dsimp only
    rw [hrec, hx.noReceiver p e he, ite_self]

theorem inv_step {start : ForwardingTable} (hpath : ∀ p e, start.get? p = some e → e.path = [])
    (hx : Inv start x) (h : Step start x y) : Inv start y := by
  cases h with
  | register account link id hnew hown => exact hx.of_register account link id hnew hown
  | update own u hr => exact hx.of_update hpath own u hr
  | remove a => exact hx.of_remove a

theorem inv_run {b : Broadcaster} (hb : Begins b)
    (h : Relation.ReflTransGen (Step b.table) ⟨b, []⟩ x) : Inv b.table x := by
  have hpath : ∀ p e, b.table.get? p = some e → e.path = [] := by
    intro p e he
    obtain ⟨a, secret, rfl⟩ := hb.own p e he
    rfl
  induction h with
  | refl => exact inv_begin hb
  | tail _ hstep ih => exact inv_step hpath ih hstep

/-- In an exchange that began with own routes only, these always stay, and of every other prefix:
there is a route for it just if some receiver has learned one; the route is the one that the
receiver of its next hop has learned; and no receiver has learned a shorter one. -/
theorem best_route_of_run {b : Broadcaster} (hb : Begins b)
    (h : Relation.ReflTransGen (Step b.table) ⟨b, []⟩ x) :
    (∀ p e, b.table.get? p = some e → x.broadcaster.table.get? p = some e) ∧
      ∀ p, b.table.get? p = none →
        ((∃ e, x.broadcaster.table.get? p = some e) ↔ ∃ a y, x.broadcaster.Learned a p y) ∧
          ∀ e, x.broadcaster.table.get? p = some e →
            x.broadcaster.Learned e.nextHop p e ∧
              ∀ a y, x.broadcaster.Learned a p y → e.path.length ≤ y.path.length := by
  have hinv := inv_run hb h
  refine ⟨hinv.own, fun p hp => ?_⟩
  have hchosen := hinv.chosen p hp
  refine ⟨⟨?_, ?_⟩, fun e he => ⟨hchosen.backed e he, fun a y hy => ?_⟩⟩
  · rintro ⟨e, he⟩
    exact ⟨e.nextHop, e, hchosen.backed e he⟩
  · rintro ⟨a, y, hy⟩
    obtain ⟨e, he, -⟩ := hchosen.best a y hy
    exact ⟨e, he⟩
  · obtain ⟨e', he', hle⟩ := hchosen.best a y hy
    rw [he, Option.some.injEq] at he'
    exact he' ▸ hle

/-- Beside an own route, what a neighbour offers comes into use. -/
theorem best_route_of_run_offer :
    ∃ (b : Broadcaster) (x : RouteExchange) (p q : AddressPrefix), Begins b ∧
      Relation.ReflTransGen (Step b.table) ⟨b, []⟩ x ∧
      (∃ e, b.table.get? p = some e ∧ x.broadcaster.table.get? p = some e) ∧
      b.table.get? q = none ∧
      ∃ e, x.broadcaster.table.get? q = some e ∧ x.broadcaster.Learned e.nextHop q e ∧
        ∀ a y, x.broadcaster.Learned a q y → e.path.length ≤ y.path.length := by
  let p : AddressPrefix := ⟨"test.node.bob", by decide +kernel⟩
  let q : AddressPrefix := ⟨"test.far", by decide +kernel⟩
  let alice : AccountId := ⟨"alice", by decide +kernel⟩
  let bob : AccountId := ⟨"bob", by decide +kernel⟩
  let id (n : UInt8) : TableId := ⟨Octets.replicate 16 n⟩
  let ownRoute : Route := .own p bob []
  let b : Broadcaster :=
    { settings := {}, table := ((ForwardingTable.fresh (id 0)).set ownRoute).2 }
  let account : AccountSettings := .plain alice .peer .loopback
  let link : LinkRef := ⟨0⟩
  let r : Receiver := { peer := alice, link, serial := 0, tableId := id 1 }
  let u : RouteUpdate :=
    { tableId := id 2, currentEpoch := 1, fromEpoch := 0, toEpoch := 1, holdDown := 0
      speaker := .unsetOperator, announced := [⟨q, [.unsetOperator], Octets.replicate 32 0, []⟩]
      withdrawn := [] }
  let b' := (b.register account link (id 1)).2
  have htable : ∀ s, b.table.get? s = if p = s then some ownRoute else none :=
    fun s => ForwardingTable.get?_set _ ownRoute s
  have hpq : p ≠ q := by decide +kernel
  have hb : Begins b := by
    refine ⟨rfl, fun s e he => ?_⟩
    rw [htable] at he
    split_ifs at he with hs
    exact ⟨bob, [], by rw [← hs, ← Option.some.inj he]⟩
  have hrec : b'.receivers = (∅ : Dict AccountId Receiver).insert alice r := rfl
  have hr : b'.receivers.get? alice = some r := by
    rw [hrec]
    exact Dict.get?_insert_self _ _ _
  let x : RouteExchange := ⟨(b'.update r none u).2, [alice]⟩
  have hx : Relation.ReflTransGen (Step b.table) ⟨b, []⟩ x := by
    refine .tail (.single (.register account link (id 1) (by simp) fun s e he => ?_))
      (.update none u hr)
    rw [htable] at he
    split_ifs at he with hs
    rw [← Option.some.inj he]
    exact Dict.get?_insert_of_ne _ _ (by decide +kernel)
  let y := Learning.routeOf alice none ⟨q, [.unsetOperator], Octets.replicate 32 0, []⟩
  have hlearned : x.broadcaster.Learned alice q y := by
    refine ⟨_, (by rw [Broadcaster.receivers_update]; exact Dict.get?_insert_self _ _ _), ?_⟩
    have hepoch : (r.opened b'.table u).receiver.epoch = 0 := by
      unfold Receiver.opened
      rw [if_neg (by decide +kernel)]
      rfl
    have hcases := r.apply_cases b'.table none u
    dsimp only at hcases
    rw [hepoch] at hcases
    rcases hcases with ⟨h, -⟩ | ⟨-, h, -⟩ | ⟨-, -, h, -⟩ | ⟨-, -, -, h⟩
    · exact absurd h (by decide)
    · exact absurd h (by decide)
    · cases h
    · rw [h]
      exact Dict.get?_insert_self _ _ _
  obtain ⟨hown, hbest⟩ := best_route_of_run hb hx
  have hp : b.table.get? p = some ownRoute := by rw [htable, if_pos rfl]
  have hq : b.table.get? q = none := by rw [htable, if_neg hpq]
  obtain ⟨e, he⟩ := (hbest q hq).1.mpr ⟨alice, y, hlearned⟩
  exact ⟨b, x, p, q, hb, hx, ⟨ownRoute, hp, hown p ownRoute hp⟩, hq, e, he, (hbest q hq).2 e he⟩

end RouteExchange

end IlpConnector
