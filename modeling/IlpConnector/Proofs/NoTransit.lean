import IlpConnector.Proofs.ChildSpace
import IlpConnector.Proofs.Succession

/-!
# No transit

A node starts, takes packets, tells its neighbours about routes and drops neighbours, in any order
(`Operation.Step`).  As long as no routes are received from children, every change in the log of its
table withdraws a route, leads to a peer or a parent, or is the own route of a child
(`Operation.Contained`).  A sender offers no route to a peer or a parent, however old the change is,
so all that it offers are own routes of children, and a parent is offered nothing
(`Operation.announced_of_run`): what the node has learned from a neighbour goes no further.  This is
so of the senders of former registrations, too, which may still be telling a last update.
-/

namespace IlpConnector

theorem AccountStore.get?_ofAccounts {accounts : List AccountSettings}
    (hids : (accounts.map AccountSettings.id).Nodup) {c : AccountSettings} (hc : c ∈ accounts) :
    (AccountStore.ofAccounts accounts).get? c.id = some c := by
  rw [ofAccounts, Dict.ofList, List.foldl_map]
  have honly : ∀ a ∈ accounts, a.id = c.id → a = c := fun a ha h =>
    List.inj_on_of_nodup_map hids ha hc h
  exact Dict.get?_foldl_insert_of_mem honly hc rfl _

/-- Putting an account into operation registers it, and gives a child its own route. -/
theorem Node.enlist_fst (n : Node) (account : AccountSettings) (link : LinkRef) (id : TableId) :
    let n' := (n.enlist account link id).1
    n'.configured = n.configured ∧ n'.accounts = n.accounts ∧ n'.operator = n.operator ∧
      n'.secret = n.secret ∧
      n'.broadcaster = { (n.broadcaster.register account link id).2 with table := n'.table } ∧
      (n'.table = n.table ∨
        ∃ home a, n.operator = some home ∧ childAddress home account.id = .ok a ∧
          n'.table = (n.table.set (.own a.toPrefix account.id n.secret)).2) := by
  have htable := n.broadcaster.table_register account link id
  intro n'
  have hn' : n' = (n.enlist account link id).1 := rfl
  clear_value n'
  unfold enlist addChildRoute at hn'
  dsimp only at hn'
  split_ifs at hn' with hchild
  · split at hn' <;> rename_i heq
    · split at heq
      · cases heq
        subst hn'
        exact ⟨rfl, rfl, rfl, rfl, rfl, Or.inl htable⟩
      · rename_i home hhome
        split at heq
        · cases heq
        · rename_i a ha
          cases heq
          subst hn'
          refine ⟨rfl, rfl, rfl, rfl, rfl, Or.inr ⟨home, a, hhome, ha, ?_⟩⟩
          change ((n.broadcaster.register account link id).2.table.set _).2 = _
          rw [htable]
          rfl
    · subst hn'
      exact ⟨rfl, rfl, rfl, rfl, rfl, Or.inl htable⟩
  · subst hn'
    exact ⟨rfl, rfl, rfl, rfl, rfl, Or.inl htable⟩

namespace Operation

/-- What may happen to a node and the accounts that it is yet to put into operation. -/
inductive Step : Startup → Startup → Prop where
  | begin {x : Startup} {m : Node} (h : x.node.begin = .ok m) : Step x ⟨m, m.configured⟩
  | enlist {n n' : Node} {account : AccountSettings} {waiting : List AccountSettings}
      (link : LinkRef) (id : TableId) (h : n.enlist account link id = (n', none)) :
      Step ⟨n, account :: waiting⟩ ⟨n', waiting⟩
  /-- A child cannot have an address, which ends the start. -/
  | refuse {n n' : Node} {account : AccountSettings} {waiting : List AccountSettings}
      {e : NodeError} (link : LinkRef) (id : TableId)
      (h : n.enlist account link id = (n', some e)) : Step ⟨n, account :: waiting⟩ ⟨n', []⟩
  /-- A link cannot be made, which ends the start too. -/
  | giveUp {x : Startup} : Step x { x with waiting := [] }
  | receive {x : Startup} (now : Instant) (a : AccountId) (p : Prepare) :
      Step x { x with node := (x.node.receive now a p).2 }
  | enter {x : Startup} (now : Instant) (reading : ℕ) (a : AccountId) (p : Prepare) :
      Step x { x with node := (x.node.enter now reading a p).2 }
  /-- A neighbour is told about the next epochs, for a present or a former registration. -/
  | tick {x : Startup} {a : AccountId} {serial : ℕ} {s : Sender}
      (hs : x.node.broadcaster.sender? a serial = some s) :
      Step x { x with node := { x.node with
        broadcaster := (x.node.broadcaster.nextUpdate s x.node.accounts x.node.operator).2 } }
  | remove {x : Startup} (a : AccountId) :
      Step x { x with node := { x.node with broadcaster := x.node.broadcaster.remove a } }
  | shutdown {x : Startup} :
      Step x { x with node := { x.node with broadcaster := x.node.broadcaster.shutdown } }

/-- The route leads to one of the accounts, and is the own route of the account if that is a
child. -/
def Ours (operator : Option Address) (accounts : List AccountSettings) (secret : Bytes)
    (r : Route) : Prop :=
  ∃ c ∈ accounts, c.id = r.nextHop ∧ (c.relationship = .child →
    ∃ home base, operator = some home ∧ Node.childAddress home c.id = .ok base ∧
      r = .own base.toPrefix c.id secret)

/-- What is so of a node with these settings, whatever has happened to it. -/
structure Contained (operator : Option Address) (accounts : List AccountSettings) (secret : Bytes)
    (x : Startup) : Prop where
  waiting : ∀ c ∈ x.waiting, c ∈ accounts
  configured : x.node.configured = accounts
  store : x.node.accounts = .ofAccounts accounts
  home : x.node.operator = operator
  key : x.node.secret = secret
  senders : x.node.broadcaster.SendersOf fun a => ∃ c ∈ accounts, c.id = a
  formers : x.node.broadcaster.FormersOf fun a => ∃ c ∈ accounts, c.id = a
  sound : x.node.broadcaster.Sound
  receivers : ∀ a r, x.node.broadcaster.receivers.get? a = some r →
    ∃ c ∈ accounts, c.id = a ∧ c.relationship ≠ .child
  log : ForwardingTable.Logs (Ours operator accounts secret) x.node.table.log

variable {operator : Option Address} {accounts : List AccountSettings} {secret : Bytes}
  {x y : Startup}

/-- Routes that lead to accounts with receivers do not lead to children. -/
theorem Contained.vouches (h : Contained operator accounts secret x) :
    x.node.broadcaster.Vouches (Ours operator accounts secret) := by
  intro a r hr e he
  obtain ⟨c, hc, hid, hne⟩ := h.receivers a r hr
  exact ⟨c, hc, hid.trans he.symm, fun hchild => absurd hchild hne⟩

theorem Contained.of_broadcaster (h : Contained operator accounts secret x) {b : Broadcaster}
    (hsenders : b.SendersOf fun a => ∃ c ∈ accounts, c.id = a)
    (hformers : b.FormersOf fun a => ∃ c ∈ accounts, c.id = a) (hsound : b.Sound)
    (hreceivers : ∀ a r, b.receivers.get? a = some r →
      ∃ r', x.node.broadcaster.receivers.get? a = some r')
    (hgrows : ForwardingTable.Grows (Ours operator accounts secret) x.node.table b.table) :
    Contained operator accounts secret { x with node := { x.node with broadcaster := b } } :=
  { h with
    senders := hsenders
    formers := hformers
    sound := hsound
    receivers := fun a r hr => by
      obtain ⟨r', hr'⟩ := hreceivers a r hr
      exact h.receivers a r' hr'
    log := hgrows.logs h.log }

theorem Contained.receive (h : Contained operator accounts secret x) (now : Instant)
    (a : AccountId) (p : Prepare) :
    Contained operator accounts secret { x with node := (x.node.receive now a p).2 } := by
  have hsenders := h.senders.receive x.node.operator now a p
  have hformers := h.formers.receive x.node.operator now a p
  rcases x.node.broadcaster.receive_cases x.node.operator now a p with
    ⟨htable, hrec, -⟩ | ⟨u, r, -, hr, heq⟩
  · refine h.of_broadcaster (b := (x.node.broadcaster.receive x.node.operator now a p).2) hsenders
      hformers ?_ (fun a' r' hr' => ⟨r', hrec ▸ hr'⟩) ?_
    · unfold Broadcaster.Sound
      rw [hrec]
      exact h.sound
    · rw [htable]
      exact .refl _ _
  · refine h.of_broadcaster (b := (x.node.broadcaster.receive x.node.operator now a p).2) hsenders
      hformers ?_ (fun a' r' hr' => ?_) ?_
    · rw [heq]
      exact Broadcaster.sound_update h.sound hr
    · rw [heq, Broadcaster.receivers_update, (h.sound a r hr).1] at hr'
      by_cases ha : a = a'
      · exact ⟨r, ha ▸ hr⟩
      · rw [Dict.get?_insert_of_ne _ _ ha] at hr'
        exact ⟨r', hr'⟩
    · rw [heq]
      exact Broadcaster.grows_update h.sound h.vouches hr _ u

/-- Putting an account into operation keeps all this, whether or not it succeeds. -/
theorem Contained.enlist (hquiet : Node.QuietChildren accounts) {n : Node}
    {account : AccountSettings} {waiting : List AccountSettings}
    (h : Contained operator accounts secret ⟨n, account :: waiting⟩) (link : LinkRef)
    (id : TableId) (rest : List AccountSettings) (hrest : ∀ c ∈ rest, c ∈ waiting) :
    Contained operator accounts secret ⟨(n.enlist account link id).1, rest⟩ := by
  have hmem : account ∈ accounts := h.waiting account List.mem_cons_self
  obtain ⟨hconf, haccounts, hop, hsecret, hb, htable⟩ := n.enlist_fst account link id
  refine ⟨fun c hc => h.waiting c (List.mem_cons_of_mem _ (hrest c hc)), hconf.trans h.configured,
    haccounts.trans h.store, hop.trans h.home, hsecret.trans h.key, ?_, ?_, ?_,
    fun a r hr => ?_, ?_⟩
  · dsimp only
    rw [hb]
    exact h.senders.register ⟨account, hmem, rfl⟩ link id
  · dsimp only
    rw [hb]
    exact h.formers.register h.senders account link id
  · dsimp only
    rw [hb]
    exact Broadcaster.sound_register h.sound account link id
  · dsimp only at hr
    rw [hb, Broadcaster.get?_receivers_register] at hr
    split_ifs at hr with hnow
    · refine ⟨account, hmem, hnow.2.2, fun hchild => ?_⟩
      have hreceives := hnow.2.1
      rw [AccountSettings.receivesRoutes_of_child hchild (hquiet account hmem hchild)] at hreceives
      cases hreceives
    · exact h.receivers a r hr
  · dsimp only
    rcases htable with htable | ⟨home, base, hhome, hbase, htable⟩
    · rw [htable]
      exact h.log
    · rw [htable]
      refine (ForwardingTable.grows_set n.table ?_).logs h.log
      rw [show n.secret = secret from h.key]
      exact ⟨account, hmem, rfl, fun _ => ⟨home, base, h.home.symm.trans hhome, hbase, rfl⟩⟩

theorem Contained.step (hquiet : Node.QuietChildren accounts)
    (h : Contained operator accounts secret x) (hstep : Step x y) :
    Contained operator accounts secret y := by
  cases hstep with
  | begin hm =>
    unfold Node.begin at hm
    split_ifs at hm
    cases hm
    exact { h with waiting := fun c hc => h.configured ▸ hc }
  | enlist link id hn =>
    have hnext := h.enlist hquiet link id _ fun c hc => hc
    rwa [hn] at hnext
  | refuse link id hn =>
    have hnext := h.enlist hquiet link id [] fun c hc => nomatch hc
    rwa [hn] at hnext
  | giveUp => exact { h with waiting := fun c hc => nomatch hc }
  | receive now a p => exact h.receive now a p
  | enter now reading a p =>
    obtain ⟨limiters, henter⟩ := x.node.exists_enter_snd now reading a p
    rw [henter]
    exact { h with }
  | tick hs =>
    obtain ⟨hsenders, hformers, hrec, htable⟩ := Broadcaster.senders_nextUpdate h.senders h.formers
      hs x.node.accounts x.node.operator
    refine h.of_broadcaster hsenders hformers (h.sound.congr hrec) (fun a r hr => ⟨r, hrec ▸ hr⟩) ?_
    rw [htable]
    exact .refl _ _
  | remove a =>
    refine h.of_broadcaster (h.senders.remove a) (h.formers.remove h.senders a)
      (Broadcaster.sound_remove h.sound a) (fun a' r hr => ?_)
      (Broadcaster.grows_remove h.sound h.vouches a)
    rw [Broadcaster.receivers_remove, Dict.get?_erase] at hr
    split_ifs at hr
    exact ⟨r, hr⟩
  | shutdown =>
    exact h.of_broadcaster h.senders.shutdown h.formers h.sound (fun a r hr => ⟨r, hr⟩)
      (.refl _ _)

variable {s : ConnectorSettings} {id : TableId} {n₀ : Node}

theorem contained_run (hn₀ : Node.ofSettings s accounts secret id = .ok n₀)
    (hquiet : Node.QuietChildren accounts) (h : Relation.ReflTransGen Step ⟨n₀, []⟩ x) :
    Contained s.operatorAddress accounts secret x := by
  induction h with
  | refl =>
    obtain ⟨rfl, -⟩ := Node.ofSettings_ok hn₀
    exact ⟨nofun, rfl, rfl, rfl, rfl, nofun, nofun, nofun, nofun, nofun⟩
  | tail _ hstep ih => exact ih.step hquiet hstep

/-! ## What a sender offers -/

/-- While no routes are received from children: every sender that a node has, or that a task may
still go on with, tells one of its accounts' neighbours; and every route that any sender for a
neighbour offers it is the own route of another neighbour, which is a child, and to a parent it
offers nothing. -/
theorem announced_of_run (hn₀ : Node.ofSettings s accounts secret id = .ok n₀)
    (hquiet : Node.QuietChildren accounts) (h : Relation.ReflTransGen Step ⟨n₀, []⟩ x) :
    (∀ t, x.node.broadcaster.HasSender t → ∃ p ∈ accounts, p.id = t.peer) ∧
    ∀ (t : Sender), ∀ p ∈ accounts, p.id = t.peer →
      let u := (x.node.broadcaster.nextUpdate t x.node.accounts x.node.operator).1
      (∀ o ∈ u.announced, ∃ c ∈ accounts, c.relationship = .child ∧ c.id ≠ p.id ∧
        ∃ home base, s.operatorAddress = some home ∧ Node.childAddress home c.id = .ok base ∧
          o = Sender.offerOf (.own base.toPrefix c.id secret)) ∧
      (p.relationship = .parent → u.announced = []) := by
  have hrun := contained_run hn₀ hquiet h
  have hids := (Node.ofSettings_ok hn₀).2
  refine ⟨fun t ht => ?_, fun t p hp hpeer => ?_⟩
  · rcases ht with ⟨a, ht⟩ | ht
    · obtain ⟨hkept, p, hp, hpid⟩ := hrun.senders a t ht
      exact ⟨p, hp, hpid.trans hkept.symm⟩
    · exact hrun.formers t ht
  have hfind : x.node.accounts.get? p.id = some p := by
    rw [hrun.store]
    exact AccountStore.get?_ofAccounts hids hp
  have hoffer : ∀ o ∈ (x.node.broadcaster.nextUpdate t x.node.accounts x.node.operator).1.announced,
      ∃ r, t.mayOffer x.node.accounts r = true ∧ Ours s.operatorAddress accounts secret r ∧
        Sender.offerOf r = o := by
    intro o ho
    obtain ⟨q, r, hr, hro⟩ := Sender.mem_offers.mp ho
    have hlogs : ForwardingTable.Logs (Ours s.operatorAddress accounts secret)
        (x.node.table.changesFrom t.nextEpoch x.node.broadcaster.settings.maxEpochs) :=
      fun c hc => hrun.log c (List.mem_of_mem_drop (List.mem_of_mem_take hc))
    obtain ⟨-, -, hmay, hours⟩ := Sender.of_get?_outcomes hlogs hr
    exact ⟨r, hmay, hours, hro⟩
  refine ⟨fun o ho => ?_, fun hparent => ?_⟩
  · obtain ⟨r, hmay, ⟨c, hc, hid, hown⟩, rfl⟩ := hoffer o ho
    obtain ⟨hne, -, hchild⟩ := Sender.mayOffer_iff.mp hmay
    have hstored : x.node.accounts.get? r.nextHop = some c := by
      rw [← hid, hrun.store]
      exact AccountStore.get?_ofAccounts hids hc
    obtain ⟨home, base, hhome, hbase, hr⟩ := hown (hchild c hstored)
    exact ⟨c, hc, hchild c hstored, fun heq => hne (hid.symm.trans (heq.trans hpeer)), home, base,
      hhome, hbase, by rw [hr]⟩
  · refine List.eq_nil_iff_forall_not_mem.mpr fun o ho => ?_
    obtain ⟨r, hmay, -, -⟩ := hoffer o ho
    exact (Sender.mayOffer_iff.mp hmay).2.1 p (hpeer ▸ hfind) hparent

theorem run_of_startup (h : Relation.ReflTransGen Startup.Step x y) :
    Relation.ReflTransGen Step x y := by
  induction h with
  | refl => exact .refl
  | tail _ hstep ih =>
    cases hstep with
    | enlist link id h => exact ih.tail (.enlist link id h)
    | receive now a p => exact ih.tail (.receive now a p)

end Operation

/-! ### A node that has been told about a route -/

namespace Node.Household

/-- The node with a child and a peer, after the peer's offer. -/
@[irreducible]
def told : Node := (started [bob, alice]).receiveAll [(⟨0⟩, alice.id, offer)]

theorem run_told : Relation.ReflTransGen Operation.Step ⟨idle [bob, alice], []⟩ ⟨told, []⟩ := by
  obtain ⟨m, hm, hstarted⟩ := started_bob_alice.receiveAll [(⟨0⟩, alice.id, offer)]
  unfold told
  exact .head (.begin hm) (Operation.run_of_startup hstarted)

/-- The peer has been removed. -/
@[irreducible]
def parted : Node := { told with broadcaster := told.broadcaster.remove alice.id }

theorem run_parted :
    Relation.ReflTransGen Operation.Step ⟨idle [bob, alice], []⟩ ⟨parted, []⟩ := by
  unfold parted
  exact run_told.tail (.remove alice.id)

/-- The sender that has told the peer, and may still tell it a last update. -/
def toAlice : Sender := (parted.broadcaster.sender? alice.id 1).get (by decide +kernel)

theorem sender_toAlice : parted.broadcaster.sender? alice.id 1 = some toAlice :=
  (Option.some_get _).symm

end Node.Household

open Node.Household in
/-- The node has a route to its child and one that the peer has offered.  When the peer has been
removed, its sender may still tell a last update, with the first one only. -/
theorem Operation.announced_of_run_parted :
    Node.ofSettings { operatorAddress := some house } [bob, alice] [] (.plain 2)
        = .ok (Node.Household.idle [bob, alice]) ∧
      Node.QuietChildren [bob, alice] ∧
      Relation.ReflTransGen Step ⟨Node.Household.idle [bob, alice], []⟩ ⟨parted, []⟩ ∧
      told.table.routes.size = 2 ∧ parted.broadcaster.senders.get? alice.id = none ∧
      parted.broadcaster.HasSender toAlice ∧ (∃ p ∈ [bob, alice], p.id = toAlice.peer) ∧
      let u := (parted.broadcaster.nextUpdate toAlice parted.accounts parted.operator).1
      u.announced.length = 1 ∧ ∀ o ∈ u.announced, ∃ c ∈ [bob, alice], c.relationship = .child ∧
        o.path = [] ∧ o.auth = (Route.own o.target c.id []).auth := by
  have hidle := @ofSettings_idle [bob, alice] (by decide +kernel)
  have hquiet : Node.QuietChildren [bob, alice] := by
    unfold Node.QuietChildren
    decide
  have hhas : parted.broadcaster.HasSender toAlice :=
    Broadcaster.hasSender_of_sender? sender_toAlice
  obtain ⟨hpeers, hoffers⟩ := announced_of_run hidle hquiet run_parted
  refine ⟨hidle, hquiet, run_parted, by decide +kernel, by decide +kernel, hhas,
    hpeers toAlice hhas, by decide +kernel, fun o ho => ?_⟩
  have hpeer : alice.id = toAlice.peer := by decide +kernel
  obtain ⟨hannounced, -⟩ := hoffers toAlice alice (by decide) hpeer
  obtain ⟨c, hc, hchild, -, home, base, -, -, rfl⟩ := hannounced o ho
  exact ⟨c, hc, hchild, rfl, rfl⟩

end IlpConnector
