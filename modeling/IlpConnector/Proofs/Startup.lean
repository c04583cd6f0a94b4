import IlpConnector.Node.Basic
import IlpConnector.Proofs.Prefix
import IlpConnector.Proofs.Reception
import Mathlib.Data.List.Nodup

/-!
# Nodes that start

A node puts its accounts into operation one after the other, and packets may arrive between, and
from then on (`Startup.Step`).  At every moment the receivers are those of the accounts in operation
from which routes are received, and a child from which none are received is reached by the own route
that it got (`Startup.Inv`).
-/

namespace IlpConnector

/-! ## What a packet does to the routes -/

namespace Broadcaster

variable {b : Broadcaster} {r : Receiver} {own operator : Option Address} {u : RouteUpdate}
  {a : AccountId}

theorem settings_register (b : Broadcaster) (account : AccountSettings) (link : LinkRef)
    (id : TableId) : (b.register account link id).2.settings = b.settings := by
  unfold register
  split_ifs <;> rfl

/-- An account that is registered gets a new receiver if routes are received from it. -/
theorem get?_receivers_register (b : Broadcaster) (account : AccountSettings) (link : LinkRef)
    (id : TableId) (a : AccountId) : (b.register account link id).2.receivers.get? a =
      if b.settings.broadcastEnabled = true ∧ account.receivesRoutes = true ∧ account.id = a then
        some { peer := account.id, link, serial := b.nextSerial, tableId := id }
      else b.receivers.get? a := by
  unfold register
  cases b.settings.broadcastEnabled with
  | false => simp
  | true =>
    cases account.receivesRoutes with
    | false => cases account.sendsRoutes <;> simp
    | true =>
      have hrec : ∀ r : Receiver, (b.receivers.insert account.id r).get? a
          = if account.id = a then some r else b.receivers.get? a := by
        intro r
        split_ifs with ha
        · rw [← ha, Dict.get?_insert_self]
        · rw [Dict.get?_insert_of_ne _ _ ha]
      cases account.sendsRoutes <;> simp [hrec]

theorem settings_update : (b.update r own u).2.settings = b.settings := by
  rw [update_snd, settings_select]
  rfl

/-- When a neighbour turns to another table of which it tells nothing yet, no route leads to it any
more. -/
theorem nextHop_ne_of_update (hb : b.Sound) (hr : b.receivers.get? a = some r)
    (hid : r.tableId ≠ u.tableId) (hto : u.toEpoch = 0) {p : AddressPrefix} {e : Route}
    (he : (b.update r own u).2.table.get? p = some e) : e.nextHop ≠ a := by
  have hpeer := (hb a r hr).1
  have happly : (r.apply b.table own u).1 = r.opened b.table u := by
    rcases r.apply_cases b.table own u with ⟨-, h⟩ | ⟨-, -, h⟩ | ⟨-, h, -⟩ | ⟨-, h, -⟩
    · rw [h]
    · rw [h]
    · exact absurd h (by simp [hto])
    · exact absurd h (by simp [hto])
  have hopened : r.opened b.table u
      = { receiver := r, table := b.table : Learning }.adopt u.tableId := if_neg hid
  rw [update_snd] at he
  rcases learned_of_get?_select (sound_learn hb hr) _ he with h | h
  · rw [table_learn, happly, hopened, Learning.get?_adopt] at h
    exact hpeer ▸ h.2
  · intro hhop
    rw [hhop, ← hpeer, learned_learn_self, happly, hopened] at h
    cases h

end Broadcaster

/-! ## Accounts and their addresses -/

namespace Node

variable {n n' : Node} {operator : Address} {account : AccountSettings} {link : LinkRef}
  {id : TableId}

/-- Routes are received from an account. -/
def hears (n : Node) (account : AccountSettings) : Bool :=
  n.broadcaster.settings.broadcastEnabled && account.receivesRoutes

theorem childAddress_inj {c c' : AccountId} {a a' : Address} (h : childAddress operator c = .ok a)
    (h' : childAddress operator c' = .ok a') (heq : a.toPrefix = a'.toPrefix) : c = c' := by
  have htext : a.text = a'.text := congrArg AddressPrefix.text heq
  rw [Address.text_of_ofText h, Address.text_of_ofText h', String.append_right_inj] at htext
  cases c
  cases c'
  exact AccountId.mk.injEq .. ▸ htext

theorem nodup_of_firstDuplicate? {seen : List AccountId} {accounts : List AccountSettings}
    (h : firstDuplicate? seen accounts = none) :
    (accounts.map AccountSettings.id).Nodup ∧ ∀ a ∈ accounts, a.id ∉ seen := by
  induction accounts generalizing seen with
  | nil => simp
  | cons a rest ih =>
    unfold firstDuplicate? at h
    split_ifs at h with ha
    obtain ⟨hnodup, hrest⟩ := ih h
    rw [List.contains_iff_mem] at ha
    refine ⟨?_, fun x hx => ?_⟩
    · rw [List.map_cons, List.nodup_cons]
      refine ⟨fun hmem => ?_, hnodup⟩
      obtain ⟨x, hx, hxa⟩ := List.mem_map.mp hmem
      exact hrest x hx (hxa ▸ List.mem_cons_self)
    · rcases List.mem_cons.mp hx with rfl | hx
      · exact ha
      · exact fun hseen => hrest x hx (List.mem_cons_of_mem _ hseen)

/-- What putting an account into operation changes, where the node has an address. -/
theorem enlist_ok (hop : n.operator = some operator) (h : n.enlist account link id = (n', none)) :
    n'.operator = n.operator ∧ n'.secret = n.secret ∧
      n'.broadcaster.settings = n.broadcaster.settings ∧
      n'.broadcaster.receivers = (n.broadcaster.register account link id).2.receivers ∧
      ((account.relationship ≠ .child ∧ n'.table = n.table) ∨
        ∃ a, childAddress operator account.id = .ok a ∧
          n'.table = (n.table.set (.own a.toPrefix account.id n.secret)).2) := by
  have htable := n.broadcaster.table_register account link id
  have hsettings := n.broadcaster.settings_register account link id
  unfold enlist addChildRoute at h
  dsimp only at h
  rw [hop] at h
  split_ifs at h with hchild
  · dsimp only at h
    cases ha : childAddress operator account.id with
    | error e =>
      rw [ha] at h
      cases h
    | ok a =>
      rw [ha] at h
      cases h
      refine ⟨hop.symm, rfl, hsettings, rfl, Or.inr ⟨a, rfl, ?_⟩⟩
      change ((n.broadcaster.register account link id).2.table.set _).2 = _
      rw [htable]
      rfl
  · cases h
    exact ⟨hop.symm, rfl, hsettings, rfl, Or.inl ⟨hchild, htable⟩⟩

/-- An account can be put into operation unless it is a child that can have no address. -/
theorem exists_enlist (hop : n.operator = some operator)
    (ha : account.relationship = .child → ∃ a, childAddress operator account.id = .ok a)
    (link : LinkRef) (id : TableId) : ∃ n', n.enlist account link id = (n', none) := by
  unfold enlist addChildRoute
  dsimp only
  rw [hop]
  split_ifs with hchild
  · obtain ⟨a, ha⟩ := ha hchild
    dsimp only
    rw [ha]
    exact ⟨_, rfl⟩
  · exact ⟨_, rfl⟩

end Node

/-! ## Starting -/

structure Startup where
  node : Node
  /-- The accounts that are not in operation yet. -/
  waiting : List AccountSettings

namespace Startup

/-- The next account is put into operation, or a packet arrives. -/
inductive Step : Startup → Startup → Prop where
  | enlist {n n' : Node} {account : AccountSettings} {waiting : List AccountSettings}
      (link : LinkRef) (id : TableId) (h : n.enlist account link id = (n', none)) :
      Step ⟨n, account :: waiting⟩ ⟨n', waiting⟩
  | receive {x : Startup} (now : Instant) (a : AccountId) (p : Prepare) :
      Step x { x with node := (x.node.receive now a p).2 }

variable {m : Node} {home : Address} {x y : Startup} {enlisted : List AccountSettings}

/-- What is so while the node `m` of this address starts, once so many of its accounts are in
operation. -/
structure Inv (m : Node) (home : Address) (enlisted : List AccountSettings) (x : Startup) :
    Prop where
  configured : m.configured = enlisted ++ x.waiting
  operator : x.node.operator = some home
  secret : x.node.secret = m.secret
  settings : x.node.broadcaster.settings = m.broadcaster.settings
  sound : x.node.broadcaster.Sound
  receivers : ∀ a, (∃ r, x.node.broadcaster.receivers.get? a = some r) ↔
    ∃ c ∈ enlisted, c.id = a ∧ m.hears c = true
  children : ∀ c ∈ enlisted, c.relationship = .child →
    ∃ a, Node.childAddress home c.id = .ok a ∧
      (m.hears c = false → x.node.table.get? a.toPrefix = some (.own a.toPrefix c.id m.secret))

theorem inv_start (hop : m.operator = some home) (hm : m.broadcaster.receivers = ∅) :
    Inv m home [] ⟨m, m.configured⟩ where
  configured := rfl
  operator := hop
  secret := rfl
  settings := rfl
  sound a r hr := by
    rw [hm] at hr
    cases hr
  receivers a := by
    rw [hm]
    simp
  children c hc := absurd hc List.not_mem_nil

theorem Inv.receivers_eq_none (h : Inv m home enlisted x)
    (hids : (m.configured.map AccountSettings.id).Nodup) {c : AccountSettings}
    (hc : c ∈ m.configured) (hhears : m.hears c = false) :
    x.node.broadcaster.receivers.get? c.id = none := by
  rw [Option.eq_none_iff_forall_ne_some]
  intro r hr
  obtain ⟨c', hc', hid, hhears'⟩ := (h.receivers c.id).mp ⟨r, hr⟩
  have hmem : c' ∈ m.configured := h.configured ▸ List.mem_append_left _ hc'
  rw [List.inj_on_of_nodup_map hids hmem hc hid, hhears] at hhears'
  cases hhears'

/-- Another state of the exchange of routes, with the same accounts and own routes. -/
theorem Inv.of_broadcaster (h : Inv m home enlisted x)
    (hids : (m.configured.map AccountSettings.id).Nodup) {b : Broadcaster}
    (hsettings : b.settings = x.node.broadcaster.settings) (hsound : b.Sound)
    (hrec : ∀ a, (∃ r, b.receivers.get? a = some r) ↔
      ∃ r, x.node.broadcaster.receivers.get? a = some r)
    (hown : ∀ p e, x.node.table.get? p = some e → e.path = [] →
      x.node.broadcaster.receivers.get? e.nextHop = none → b.table.get? p = some e) :
    Inv m home enlisted { x with node := { x.node with broadcaster := b } } where
  configured := h.configured
  operator := h.operator
  secret := h.secret
  settings := hsettings.trans h.settings
  sound := hsound
  receivers a := (hrec a).trans (h.receivers a)
  children c hc hchild := by
    obtain ⟨a, ha, hroute⟩ := h.children c hc hchild
    have hmem : c ∈ m.configured := h.configured ▸ List.mem_append_left _ hc
    exact ⟨a, ha, fun hhears => hown _ _ (hroute hhears) rfl
      (h.receivers_eq_none hids hmem hhears)⟩

theorem Inv.of_receive (h : Inv m home enlisted x)
    (hids : (m.configured.map AccountSettings.id).Nodup) (now : Instant) (a : AccountId)
    (p : Prepare) : Inv m home enlisted { x with node := (x.node.receive now a p).2 } := by
  rcases x.node.broadcaster.receive_cases x.node.operator now a p with
    ⟨htable, hrec, hsettings⟩ | ⟨u, r, -, hr, heq⟩
  · refine h.of_broadcaster (b := (x.node.broadcaster.receive x.node.operator now a p).2) hids
      hsettings ?_ (fun a => by rw [hrec]) fun q e he _ _ => ?_
    · unfold Broadcaster.Sound
      rw [hrec]
      exact h.sound
    · rw [htable]
      exact he
  · refine h.of_broadcaster (b := (x.node.broadcaster.receive x.node.operator now a p).2) hids
      ?_ ?_ (fun a' => ?_) fun q e he hpath hnone => ?_
    · rw [heq, Broadcaster.settings_update]
    · rw [heq]
      exact Broadcaster.sound_update h.sound hr
    · rw [heq, Broadcaster.receivers_update, (h.sound a r hr).1]
      by_cases ha : a = a'
      · subst ha
        rw [Dict.get?_insert_self]
        exact ⟨fun _ => ⟨r, hr⟩, fun _ => ⟨_, rfl⟩⟩
      · rw [Dict.get?_insert_of_ne _ _ ha]
    · rw [heq]
      exact Broadcaster.own_update h.sound hr he hpath hnone

theorem Inv.exists_receiver_iff {n : Node} {account : AccountSettings}
    {waiting : List AccountSettings} (h : Inv m home enlisted ⟨n, account :: waiting⟩)
    (link : LinkRef) (id : TableId) (a : AccountId) :
    (∃ r, (n.broadcaster.register account link id).2.receivers.get? a = some r) ↔
      ∃ c ∈ enlisted ++ [account], c.id = a ∧ m.hears c = true := by
  have hhears : n.broadcaster.settings.broadcastEnabled = true ∧ account.receivesRoutes = true ↔
      m.hears account = true := by
    rw [Node.hears, ← h.settings, Bool.and_eq_true]
  rw [Broadcaster.get?_receivers_register]
  constructor
  · rintro ⟨r, hr⟩
    split_ifs at hr with hnow
    · exact ⟨account, List.mem_append_right _ List.mem_cons_self, hnow.2.2,
        hhears.mp ⟨hnow.1, hnow.2.1⟩⟩
    · obtain ⟨c, hc, hid⟩ := (h.receivers a).mp ⟨r, hr⟩
      exact ⟨c, List.mem_append_left _ hc, hid⟩
  · rintro ⟨c, hc, hid, hheard⟩
    split_ifs with hnow
    · exact ⟨_, rfl⟩
    · rcases List.mem_append.mp hc with hc | hc
      · exact (h.receivers a).mpr ⟨c, hc, hid, hheard⟩
      · obtain rfl := List.mem_singleton.mp hc
        obtain ⟨henabled, hreceives⟩ := hhears.mpr hheard
        exact absurd ⟨henabled, hreceives, hid⟩ hnow

theorem Inv.of_enlist {n n' : Node} {account : AccountSettings} {waiting : List AccountSettings}
    {link : LinkRef} {id : TableId} (h : Inv m home enlisted ⟨n, account :: waiting⟩)
    (hids : (m.configured.map AccountSettings.id).Nodup)
    (hn : n.enlist account link id = (n', none)) :
    Inv m home (enlisted ++ [account]) ⟨n', waiting⟩ := by
  obtain ⟨hoperator, hsecret, hsettings, hrec, htable⟩ := Node.enlist_ok h.operator hn
  have hconf := h.configured
  have hnew : ∀ c ∈ enlisted, c.id ≠ account.id := by
    intro c hc hid
    rw [hconf, List.map_append, List.nodup_append] at hids
    exact hids.2.2 c.id (List.mem_map_of_mem hc) account.id List.mem_cons_self hid
  refine ⟨?_, hoperator.trans h.operator, hsecret.trans h.secret, hsettings.trans h.settings, ?_,
    fun a => ?_, fun c hc hchild => ?_⟩
  · rw [hconf, List.append_assoc]
    rfl
  · intro a r hr
    dsimp only at hr
    rw [hrec] at hr
    exact Broadcaster.sound_register h.sound account link id a r hr
  · dsimp only
    rw [hrec]
    exact h.exists_receiver_iff link id a
  · rcases List.mem_append.mp hc with hc | hc
    · obtain ⟨b, hb, hroute⟩ := h.children c hc hchild
      refine ⟨b, hb, fun hhears => ?_⟩
      dsimp only
      rcases htable with ⟨-, htable⟩ | ⟨b', hb', htable⟩
      · rw [htable]
        exact hroute hhears
      · rw [htable, ForwardingTable.get?_set, if_neg]
        · exact hroute hhears
        · intro heq
          exact hnew c hc (Node.childAddress_inj hb hb' heq.symm)
    · obtain rfl := List.mem_singleton.mp hc
      rcases htable with ⟨hne, -⟩ | ⟨b, hb, htable⟩
      · exact absurd hchild hne
      · refine ⟨b, hb, fun _ => ?_⟩
        dsimp only
        rw [htable, ForwardingTable.get?_set, ← h.secret]
        exact if_pos rfl

theorem inv_run (hop : m.operator = some home) (hm : m.broadcaster.receivers = ∅)
    (hids : (m.configured.map AccountSettings.id).Nodup)
    (h : Relation.ReflTransGen Step ⟨m, m.configured⟩ x) : ∃ enlisted, Inv m home enlisted x := by
  induction h with
  | refl => exact ⟨[], inv_start hop hm⟩
  | tail _ hstep ih =>
    obtain ⟨enlisted, hinv⟩ := ih
    cases hstep with
    | enlist link id h => exact ⟨_, hinv.of_enlist hids h⟩
    | receive now a p => exact ⟨enlisted, hinv.of_receive hids now a p⟩

end Startup

namespace Node

/-- The node after packets have arrived, each at its instant from an account. -/
def receiveAll (n : Node) (arrivals : List (Instant × AccountId × Prepare)) : Node :=
  arrivals.foldl (fun n x => (n.receive x.1 x.2.1 x.2.2).2) n

/-- The same of a packet that arrives with such an update. -/
theorem nextHop_ne_of_newTable {n : Node} (hsound : n.broadcaster.Sound) {a : AccountId}
    {r : Receiver} (hr : n.broadcaster.receivers.get? a = some r) {now : Instant} {p : Prepare}
    (hp : p.destination = updateDestination) {u : RouteUpdate}
    (hu : RouteUpdate.ofPrepare now p = .ok u) (hid : r.tableId ≠ u.tableId) (hto : u.toEpoch = 0)
    {q : AddressPrefix} {e : Route}
    (he : (n.receiveAll [(now, a, p)]).table.get? q = some e) : e.nextHop ≠ a := by
  have hreceive : (n.broadcaster.receive n.operator now a p).2.table.get? q = some e := he
  rw [Broadcaster.receive_of_update hp hu hr] at hreceive
  exact Broadcaster.nextHop_ne_of_update hsound hr hid hto hreceive

/-- The node has started successfully, whatever has arrived meanwhile and since. -/
def Started (n₀ n : Node) : Prop :=
  ∃ m, n₀.begin = .ok m ∧ Relation.ReflTransGen Startup.Step ⟨m, m.configured⟩ ⟨n, []⟩

variable {n₀ n : Node} {s : ConnectorSettings} {accounts : List AccountSettings} {secret : Bytes}
  {id : TableId} {home : Address}

theorem Started.receiveAll (h : Started n₀ n) (arrivals : List (Instant × AccountId × Prepare)) :
    Started n₀ (n.receiveAll arrivals) := by
  induction arrivals generalizing n with
  | nil => exact h
  | cons x arrivals ih =>
    obtain ⟨m, hm, hrun⟩ := h
    exact ih ⟨m, hm, hrun.tail (.receive x.1 x.2.1 x.2.2)⟩

/-- A node that is accepted is as its settings say, and its accounts have different ids. -/
theorem ofSettings_ok (h : ofSettings s accounts secret id = .ok n₀) :
    n₀ = {
        operator := s.operatorAddress
        configured := accounts
        accounts := .ofAccounts accounts
        sources := [.static (.ofRoutes s.staticRoutes), .learned]
        broadcaster := { settings := s.routing, table := .fresh id }
        secret } ∧ (accounts.map AccountSettings.id).Nodup := by
  unfold ofSettings at h
  split at h
  · cases h
  · rename_i hdup
    split at h
    · cases h
    · exact ⟨(Except.ok.inj h).symm, (nodup_of_firstDuplicate? hdup).1⟩

/-- What is so of a node that has started with all its accounts. -/
theorem Started.inv (hn₀ : ofSettings s accounts secret id = .ok n₀)
    (hhome : s.operatorAddress = some home) (h : Started n₀ n) :
    ∃ m : Node, m.secret = secret ∧ m.broadcaster.settings = s.routing ∧
      Startup.Inv m home accounts ⟨n, []⟩ := by
  obtain ⟨m, hm, hrun⟩ := h
  obtain ⟨rfl, hids⟩ := ofSettings_ok hn₀
  cases hm
  obtain ⟨enlisted, hinv⟩ := Startup.inv_run hhome rfl hids hrun
  obtain rfl : accounts = enlisted := hinv.configured.trans (List.append_nil _)
  exact ⟨_, rfl, rfl, hinv⟩

/-- The accounts that wait can be put into operation, unless one is a child that can have no
address. -/
theorem exists_run {waiting : List AccountSettings} (hop : n.operator = some home)
    (hchildren : ∀ c ∈ waiting, c.relationship = .child → ∃ a, childAddress home c.id = .ok a)
    (link : LinkRef) (id : TableId) :
    ∃ n', Relation.ReflTransGen Startup.Step ⟨n, waiting⟩ ⟨n', []⟩ := by
  induction waiting generalizing n with
  | nil => exact ⟨n, .refl⟩
  | cons account waiting ih =>
    obtain ⟨n₁, h₁⟩ := exists_enlist hop (hchildren account List.mem_cons_self) link id
    obtain ⟨n', hrun⟩ := ih ((enlist_ok hop h₁).1.trans hop) fun c hc =>
      hchildren c (List.mem_cons_of_mem _ hc)
    exact ⟨n', .head (.enlist link id h₁) hrun⟩

/-- A node with an address starts, unless a child can have no address below it. -/
theorem exists_started (hn₀ : ofSettings s accounts secret id = .ok n₀)
    (hhome : s.operatorAddress = some home)
    (hchildren : ∀ c ∈ accounts, c.relationship = .child → ∃ a, childAddress home c.id = .ok a) :
    ∃ n, Started n₀ n := by
  obtain ⟨hn, -⟩ := ofSettings_ok hn₀
  have hop : n₀.operator = some home := by
    rw [hn]
    exact hhome
  have hwaiting : ∀ c ∈ n₀.configured, c.relationship = .child →
      ∃ a, childAddress home c.id = .ok a := by
    rw [hn]
    exact hchildren
  obtain ⟨n, hrun⟩ := exists_run (n := { n₀ with started := true }) hop hwaiting ⟨0⟩ id
  refine ⟨n, { n₀ with started := true }, ?_, hrun⟩
  rw [hn]
  rfl

end Node

end IlpConnector
