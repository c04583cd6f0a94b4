import IlpConnector.Proofs.ChildRoute

/-!
# Registering an account again

An account that is registered again gets a receiver that has learned nothing, while the table still
has the routes that the one before had brought.  The first update for the new receiver takes all of
these away (`Broadcaster.exists_entry_update_fresh`), but only what the update itself announces is
chosen anew.  So a prefix that led to the account has a route afterwards just if the account
announces it again, whatever other neighbours offer (`Broadcaster.entry_iff_of_reregister`).
-/

namespace IlpConnector

namespace Learning

variable {l : Learning} {own : Option Address} {p : AddressPrefix}

theorem foldl_withdraw_of_nothing (qs : List AddressPrefix) (h : l.receiver.learned = ∅) :
    qs.foldl withdraw l = l := by
  induction qs with
  | nil => rfl
  | cons q qs ih =>
    have hq : l.withdraw q = l := by
      unfold withdraw
      rw [h, Dict.get?_emptyCollection]
      rfl
    rw [List.foldl_cons, hq, ih]

/-- What offers change, they have brought. -/
theorem learned_of_mem_changed (as : List Announcement)
    (h : p ∈ l.changed → ∃ x, l.receiver.learned.get? p = some x)
    (hp : p ∈ (as.foldl (learn own) l).changed) :
    ∃ x, (as.foldl (learn own) l).receiver.learned.get? p = some x := by
  induction as generalizing l with
  | nil => exact h hp
  | cons a as ih =>
    refine ih (fun hmem => ?_) hp
    rw [receiver_learn]
    cases hloop : loops own a with
    | true =>
      have heq : learn own l a = l := by
        unfold learn
        rw [if_pos hloop]
      rw [heq] at hmem
      exact h hmem
    | false =>
      rw [if_neg (by simp)]
      by_cases ha : a.target = p
      · rw [ha]
        exact ⟨_, Dict.get?_insert_self _ _ _⟩
      · rw [Dict.get?_insert_of_ne _ _ ha]
        refine h ?_
        rcases learn_cases (l := l) hloop with ⟨-, hchanged, -⟩ | ⟨-, hchanged, -⟩
        · rw [hchanged, List.mem_append, List.mem_singleton] at hmem
          exact hmem.resolve_right fun hpa => ha hpa.symm
        · rwa [hchanged] at hmem

end Learning

namespace Receiver

variable {own : Option Address} {u : RouteUpdate} {p : AddressPrefix} {peer : AccountId}
  {link : LinkRef} {serial : ℕ} {id : TableId}

/-- The receiver of an account that has just been registered. -/
def fresh (peer : AccountId) (link : LinkRef) (serial : ℕ) (id : TableId) : Receiver :=
  { peer, link, serial, tableId := id }

theorem opened_fresh (hid : u.tableId ≠ id) (table : ForwardingTable) :
    (fresh peer link serial id).opened table u
      = { receiver := fresh peer link serial id, table : Learning }.adopt u.tableId :=
  if_neg (Ne.symm hid)

/-- What the first update of a new receiver changes, the receiver has learned. -/
theorem learned_of_mem_changed_fresh (hid : u.tableId ≠ id) (table : ForwardingTable)
    (hp : p ∈ ((fresh peer link serial id).apply table own u).1.changed) :
    ∃ x, ((fresh peer link serial id).apply table own u).1.receiver.learned.get? p = some x := by
  have hopened : (fresh peer link serial id).opened table u
      = { receiver := fresh peer link serial id, table : Learning }.adopt u.tableId :=
    opened_fresh hid table
  rcases apply_cases (fresh peer link serial id) table own u with
    ⟨-, h⟩ | ⟨-, -, h⟩ | ⟨-, -, -, h⟩ | ⟨-, -, -, h⟩ <;> rw [h] at hp ⊢
  · rw [changed_opened] at hp
    cases hp
  · rw [changed_opened] at hp
    cases hp
  · rw [Learning.changed_reach, changed_opened] at hp
    cases hp
  · rw [hopened, Learning.foldl_withdraw_of_nothing _ rfl] at hp ⊢
    exact Learning.learned_of_mem_changed _ (fun hmem => absurd hmem List.not_mem_nil) hp

end Receiver

namespace Broadcaster

variable {b b₀ : Broadcaster} {p : AddressPrefix} {peer : AccountId} {link : LinkRef} {serial : ℕ}
  {id : TableId} {own : Option Address} {u : RouteUpdate}

/-! ## The first update of a new receiver -/

/-- After the first update of a new receiver, the routes to its account are those that the update
brings; of all others none gets lost. -/
theorem exists_entry_update_fresh (hb : b.Sound)
    (hr : b.receivers.get? peer = some (.fresh peer link serial id)) (hid : u.tableId ≠ id) :
    (∃ e, (b.update (.fresh peer link serial id) own u).2.table.get? p = some e) ↔
      (∃ e, b.table.get? p = some e ∧ e.nextHop ≠ peer) ∨
        ∃ x, (b.update (.fresh peer link serial id) own u).2.Learned peer p x := by
  set r := Receiver.fresh peer link serial id with hfresh
  have hsound : (b.learn r own u).2.Sound := sound_learn hb hr
  have hdropped : dropped r u = [] := if_neg (Ne.symm hid)
  have hopened : ∀ e, (r.opened b.table u).table.get? p = some e ↔
      b.table.get? p = some e ∧ e.nextHop ≠ peer := by
    intro e
    rw [hfresh, Receiver.opened_fresh hid]
    exact Learning.get?_adopt
  have hlearned : (∃ x, (b.update r own u).2.Learned peer p x) ↔
      ∃ x, (r.apply b.table own u).1.receiver.learned.get? p = some x := by
    refine exists_congr fun x => ?_
    unfold Learned
    rw [receivers_update, show r.peer = peer from rfl, Dict.get?_insert_self]
    simp
  have htracks := r.tracks_apply b.table own u p
  rw [hlearned, update_snd, hdropped, List.nil_append]
  by_cases hp : p ∈ (r.apply b.table own u).1.changed
  · -- what has changed is chosen anew, and the new receiver has learned it
    obtain ⟨x, hx⟩ := Receiver.learned_of_mem_changed_fresh hid b.table hp
    refine ⟨fun _ => Or.inr ⟨x, hx⟩, fun _ => ?_⟩
    cases hown : (b.learn r own u).2.isOwn p with
    | true =>
      obtain ⟨e, he, -⟩ := isOwn_iff.mp hown
      exact ⟨e, by rw [get?_select_of_isOwn hsound _ hown, he]⟩
    | false =>
      have hchosen := chosen_select hsound hown (Or.inl (mem_ordered.mpr hp))
      obtain ⟨e, he, -⟩ := hchosen.best peer x ⟨_, by
        rw [receivers_select, receivers_learn]
        exact Dict.get?_insert_self _ _ _, hx⟩
      exact ⟨e, he⟩
  · have hkept : ((b.learn r own u).2.select
        (ordered (r.apply b.table own u).1.changed)).2.table.get? p
          = (r.opened b.table u).table.get? p := by
      rw [get?_select_of_notMem hsound (mem_ordered.not.mpr hp), table_learn, htracks.entry hp]
    rw [hkept]
    constructor
    · rintro ⟨e, he⟩
      exact Or.inl ⟨e, (hopened e).mp he⟩
    · rintro (⟨e, he⟩ | ⟨x, hx⟩)
      · exact ⟨e, (hopened e).mpr he⟩
      · have hmatched : (r.opened b.table u).Matched p := by
          rw [hfresh, Receiver.opened_fresh hid]
          exact Learning.matched_adopt _ _ _
        obtain ⟨e, he, -⟩ := (htracks.matched hp hmatched).best x hx
        exact ⟨e, by rw [← htracks.entry hp, he]⟩

/-! ## Runs -/

/-- An account is registered, for the first time or again; a registered receiver handles an update;
or an account is removed. -/
inductive Step : Broadcaster → Broadcaster → Prop where
  | register {b : Broadcaster} (account : AccountSettings) (link : LinkRef) (id : TableId) :
      Step b (b.register account link id).2
  | update {b : Broadcaster} (own : Option Address) (u : RouteUpdate) {a : AccountId} {r : Receiver}
      (hr : b.receivers.get? a = some r) : Step b (b.update r own u).2
  | remove {b : Broadcaster} (a : AccountId) : Step b (b.remove a)

theorem sound_step {b' : Broadcaster} (hb : b.Sound) (h : Step b b') : b'.Sound := by
  cases h with
  | register account link id => exact sound_register hb account link id
  | update own u hr => exact sound_update hb hr
  | remove a => exact sound_remove hb a

theorem sound_run (hb₀ : b₀.receivers = ∅) (h : Relation.ReflTransGen Step b₀ b) : b.Sound := by
  induction h with
  | refl =>
    intro a r hr
    rw [hb₀] at hr
    cases hr
  | tail _ hstep ih => exact sound_step ih hstep

/-- When an account is registered again and its new receiver handles a first update, about whatever
table but the one of the receiver's own making, a prefix has a route afterwards just if it had one
before that did not lead to the account, or the account offers one now.  What other neighbours have
offered meanwhile does not count. -/
theorem entry_iff_of_reregister (hb₀ : b₀.receivers = ∅) (hrun : Relation.ReflTransGen Step b₀ b)
    {account : AccountSettings} (henabled : b.settings.broadcastEnabled = true)
    (hreceives : account.receivesRoutes = true) (hid : u.tableId ≠ id) :
    let new := Receiver.fresh account.id link b.nextSerial id
    let b' := ((b.register account link id).2.update new own u).2
    (b.register account link id).2.receivers.get? account.id = some new ∧
      ((∃ e, b'.table.get? p = some e) ↔
        (∃ e, b.table.get? p = some e ∧ e.nextHop ≠ account.id) ∨
          ∃ x, b'.Learned account.id p x) := by
  intro new b'
  have hr : (b.register account link id).2.receivers.get? account.id = some new := by
    rw [get?_receivers_register, if_pos ⟨henabled, hreceives, rfl⟩]
    rfl
  have hsound := sound_register (sound_run hb₀ hrun) account link id
  refine ⟨hr, ?_⟩
  rw [← table_register b account link id]
  exact exists_entry_update_fresh hsound hr hid

/-! ### A neighbour that comes back -/

namespace Comeback

/-- A neighbour with a short way to a prefix. -/
def near : AccountSettings := .plain ⟨"near", by decide +kernel⟩ .peer .loopback

/-- A neighbour with a longer way. -/
def far : AccountSettings := .plain ⟨"far", by decide +kernel⟩ .peer .loopback

def shared : AddressPrefix := ⟨"example.x", by decide +kernel⟩

def nobody : Broadcaster := { settings := {}, table := .fresh (.plain 0) }

/-- Both neighbours are registered. -/
def both : Broadcaster :=
  ((nobody.register near ⟨0⟩ (.plain 1)).2.register far ⟨1⟩ (.plain 2)).2

/-- Their receivers. -/
def nearFirst : Receiver := .fresh near.id ⟨0⟩ 0 (.plain 1)

def farFirst : Receiver := .fresh far.id ⟨1⟩ 1 (.plain 2)

/-- The near neighbour has offered the prefix. -/
def nearOffered : Broadcaster :=
  (both.update nearFirst none (.first (.plain 3) [.plain shared []])).2

/-- Then the far one has, too. -/
def bothOffered : Broadcaster :=
  (nearOffered.update farFirst none
    (.first (.plain 4) [.plain shared [.unsetOperator]])).2

/-- The near neighbour is back and tells about a new table, with these offers. -/
def back (announced : List Announcement) : RouteUpdate := .first (.plain 6) announced

theorem get?_receivers_both (a : AccountId) : both.receivers.get? a =
    if far.id = a then some farFirst else if near.id = a then some nearFirst else none := by
  rw [both, get?_receivers_register, settings_register, get?_receivers_register]
  simp [show nobody.settings.broadcastEnabled = true from rfl,
    show near.receivesRoutes = true from rfl, show far.receivesRoutes = true from rfl,
    show nobody.receivers = ∅ from rfl, nearFirst, farFirst, Receiver.fresh]
  rfl

theorem run_bothOffered : Relation.ReflTransGen Step nobody bothOffered := by
  have hne : near.id ≠ far.id := by decide
  have hnear : both.receivers.get? near.id = some nearFirst := by
    rw [get?_receivers_both, if_neg (Ne.symm hne), if_pos rfl]
  have hfar : nearOffered.receivers.get? far.id = some farFirst := by
    rw [nearOffered, receivers_update, Dict.get?_insert_of_ne, get?_receivers_both, if_pos rfl]
    exact hne
  have hboth : Relation.ReflTransGen Step nobody both :=
    .tail (.single (.register near _ _)) (.register far _ _)
  have hstep : Step both nearOffered := .update none (.first (.plain 3) [.plain shared []]) hnear
  have hstep' : Step nearOffered bothOffered :=
    .update none (.first (.plain 4) [.plain shared [.unsetOperator]]) hfar
  exact (hboth.tail hstep).tail hstep'

end Comeback

open Comeback

theorem exists_learned {a : AccountId}
    (h : ((b.receivers.get? a).bind fun r => r.learned.get? p).isSome = true) :
    ∃ x, b.Learned a p x := by
  obtain ⟨x, hx⟩ := Option.isSome_iff_exists.mp h
  obtain ⟨r, hr, hx⟩ := Option.bind_eq_some_iff.mp hx
  exact ⟨x, r, hr, hx⟩

/-- A neighbour that comes back with the prefix keeps its route. -/
theorem entry_iff_of_reregister_again :
    nobody.receivers = ∅ ∧ Relation.ReflTransGen Step nobody bothOffered ∧
      bothOffered.settings.broadcastEnabled = true ∧ near.receivesRoutes = true ∧
      (back [.plain shared []]).tableId ≠ .plain 5 ∧
      ∃ e, ((bothOffered.register near ⟨2⟩ (.plain 5)).2.update
        (.fresh near.id ⟨2⟩ bothOffered.nextSerial (.plain 5)) none
        (back [.plain shared []])).2.table.get? shared = some e := by
  have henabled : bothOffered.settings.broadcastEnabled = true := by decide +kernel
  have hid : (back [.plain shared []]).tableId ≠ .plain 5 := by decide
  refine ⟨rfl, run_bothOffered, henabled, rfl, hid,
    (entry_iff_of_reregister rfl run_bothOffered henabled rfl hid).2.mpr (Or.inr ?_)⟩
  exact exists_learned (by decide +kernel)

/-- A neighbour that comes back without the prefix takes the route away, although the other one
still offers it. -/
theorem reregister_loses_entry :
    ∃ (b₀ b : Broadcaster) (account : AccountSettings) (link : LinkRef) (id : TableId)
      (u : RouteUpdate) (p : AddressPrefix),
      b₀.receivers = ∅ ∧ Relation.ReflTransGen Step b₀ b ∧
      (∃ r, b.receivers.get? account.id = some r) ∧ b.settings.broadcastEnabled = true ∧
      account.receivesRoutes = true ∧ u.tableId ≠ id ∧
      let b' := ((b.register account link id).2.update
        (.fresh account.id link b.nextSerial id) none u).2
      (∃ a x, b'.Learned a p x) ∧ b'.isOwn p = false ∧ b'.table.get? p = none := by
  refine ⟨nobody, bothOffered, near, ⟨2⟩, .plain 5, back [], shared, rfl,
    run_bothOffered, ?_, by decide +kernel, rfl, by decide, ?_⟩
  · exact Option.isSome_iff_exists.mp (by decide +kernel)
  · intro b'
    exact ⟨⟨far.id, exists_learned (by decide +kernel)⟩, by decide +kernel, by decide +kernel⟩

end Broadcaster

end IlpConnector
