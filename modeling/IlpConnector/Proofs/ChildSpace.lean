import IlpConnector.Proofs.ChildRoute
import IlpConnector.Proofs.Prefix

/-!
# The addresses below a child's own

While no routes are received from children, a route of a started node is a child's own one or the
best of what is on offer (`Node.Spread.entry_cases`).  So an address at or below a child's own leads
to the child, just if neither another child has its own address between the two nor a neighbour
offers a prefix there (`Node.resolve_child_iff`).  Both happen: the id of a child may go on after a
dot where that of another one ends, and neighbours may offer prefixes below the node's own address.
-/

namespace IlpConnector

theorem AccountSettings.receivesRoutes_of_child {c : AccountSettings}
    (hchild : c.relationship = .child) (h : c.receiveRoutes ≠ some true) :
    c.receivesRoutes = false := by
  unfold receivesRoutes
  rw [hchild]
  cases hset : c.receiveRoutes with
  | none => rfl
  | some receives =>
    cases receives with
    | true => exact absurd hset h
    | false => rfl

theorem Broadcaster.forall_learned {b : Broadcaster} {P : AddressPrefix → Prop} {a : AccountId}
    {p : AddressPrefix} {e : Route} (h : ∀ r ∈ b.receivers.values, ∀ q ∈ r.learned.keys, P q)
    (hlearned : b.Learned a p e) : P p := by
  obtain ⟨r, hr, he⟩ := hlearned
  exact h r (Dict.mem_values.mpr ⟨a, hr⟩) p (Dict.mem_keys.mpr ⟨e, he⟩)

namespace Node

theorem hears_of_child (n : Node) {c : AccountSettings} (hchild : c.relationship = .child)
    (h : c.receiveRoutes ≠ some true) : n.hears c = false := by
  rw [hears, AccountSettings.receivesRoutes_of_child hchild h, Bool.and_false]

theorem table_enlist_of_ne {n n' : Node} {account : AccountSettings} {link : LinkRef} {id : TableId}
    (hne : account.relationship ≠ .child) (h : n.enlist account link id = (n', none)) :
    n'.table = n.table := by
  unfold enlist at h
  dsimp only at h
  rw [if_neg hne] at h
  cases h
  exact Broadcaster.table_register _ _ _ _

end Node

namespace Startup

variable {m : Node} {home : Address} {x : Startup} {enlisted : List AccountSettings}
  {p : AddressPrefix}

/-- The prefix is the own address of one of the children among these accounts. -/
def IsChildPrefix (home : Address) (accounts : List AccountSettings) (p : AddressPrefix) : Prop :=
  ∃ c ∈ accounts, c.relationship = .child ∧
    ∃ a, Node.childAddress home c.id = .ok a ∧ a.toPrefix = p

theorem IsChildPrefix.mono {accounts accounts' : List AccountSettings}
    (h : IsChildPrefix home accounts p) (hsub : ∀ c ∈ accounts, c ∈ accounts') :
    IsChildPrefix home accounts' p := by
  obtain ⟨c, hc, hchild, ha⟩ := h
  exact ⟨c, hsub c hc, hchild, ha⟩

theorem chosen_receive {n : Node} (hn : n.broadcaster.Sound) (h : n.broadcaster.Chosen p)
    (now : Instant) (a : AccountId) (q : Prepare) :
    (n.receive now a q).2.broadcaster.Chosen p := by
  rcases n.broadcaster.receive_cases n.operator now a q with
    ⟨htable, hrec, -⟩ | ⟨u, r, -, hr, heq⟩
  · exact h.congr (congrArg (ForwardingTable.get? · p) htable) hrec
  · have hupdate : (n.broadcaster.update r n.operator u).2.Chosen p :=
      Broadcaster.chosen_update hn hr h
    rwa [← heq] at hupdate

/-- Putting an account into operation keeps the best route of every prefix in use that is not the
account's own address. -/
theorem chosen_enlist {n n' : Node} {account : AccountSettings} {link : LinkRef} {id : TableId}
    (hop : n.operator = some home) (hnew : n.broadcaster.receivers.get? account.id = none)
    (h : n.broadcaster.Chosen p) (hn : n.enlist account link id = (n', none))
    (hp : ¬ IsChildPrefix home [account] p) : n'.broadcaster.Chosen p := by
  obtain ⟨-, -, -, hrec, htable⟩ := Node.enlist_ok hop hn
  have hentry : n'.table.get? p = (n.broadcaster.register account link id).2.table.get? p := by
    rw [Broadcaster.table_register]
    by_cases hchild : account.relationship = .child
    · rcases htable with ⟨hne, -⟩ | ⟨a, ha, htable⟩
      · exact absurd hchild hne
      · rw [htable, ForwardingTable.get?_set]
        exact if_neg fun heq => hp ⟨account, List.mem_singleton_self _, hchild, a, ha, heq⟩
    · exact congrArg (ForwardingTable.get? · p) (Node.table_enlist_of_ne hchild hn)
  exact (Broadcaster.chosen_register hnew h).congr hentry hrec

/-- Whatever has happened while a node starts, each prefix that is not a child's own address has its
best route. -/
theorem chosen_run (hop : m.operator = some home) (hrec : m.broadcaster.receivers = ∅)
    (hroutes : m.broadcaster.table.routes = ∅)
    (hids : (m.configured.map AccountSettings.id).Nodup)
    (h : Relation.ReflTransGen Step ⟨m, m.configured⟩ x) :
    ∃ enlisted, Inv m home enlisted x ∧
      ∀ p, ¬ IsChildPrefix home enlisted p → x.node.broadcaster.Chosen p := by
  induction h with
  | refl =>
    refine ⟨[], inv_start hop hrec, fun p _ => ⟨fun e he => ?_, fun a e he => ?_⟩⟩
    · rw [ForwardingTable.get?, hroutes] at he
      cases he
    · obtain ⟨r, hr, -⟩ := he
      rw [hrec] at hr
      cases hr
  | tail _ hstep ih =>
    obtain ⟨enlisted, hinv, hchosen⟩ := ih
    cases hstep with
    | receive now a p =>
      exact ⟨enlisted, hinv.of_receive hids now a p, fun q hq =>
        chosen_receive hinv.sound (hchosen q hq) now a p⟩
    | @enlist n n' account waiting link id hn =>
      refine ⟨_, hinv.of_enlist hids hn, fun q hq => ?_⟩
      refine chosen_enlist hinv.operator ?_
        (hchosen q fun h => hq (h.mono fun _ => List.mem_append_left _)) hn
        fun h => hq (h.mono fun _ => List.mem_append_right _)
      rw [Option.eq_none_iff_forall_ne_some]
      intro r hr
      obtain ⟨c, hc, hid, -⟩ := (hinv.receivers account.id).mp ⟨r, hr⟩
      rw [hinv.configured, List.map_append, List.nodup_append] at hids
      exact hids.2.2 c.id (List.mem_map_of_mem hc) account.id List.mem_cons_self hid

end Startup

namespace Node

variable {n₀ n : Node} {s : ConnectorSettings} {accounts : List AccountSettings} {secret : Bytes}
  {id : TableId} {home base : Address} {p : AddressPrefix} {a : Address} {c : AccountSettings}

/-- Routes are received from none of the children. -/
def QuietChildren (accounts : List AccountSettings) : Prop :=
  ∀ c ∈ accounts, c.relationship = .child → c.receiveRoutes ≠ some true

/-- What a started node has routes for, while no routes are received from children. -/
structure Spread (home : Address) (accounts : List AccountSettings) (secret : Bytes) (n : Node) :
    Prop where
  /-- No child has a receiver. -/
  quiet : ∀ c ∈ accounts, c.relationship = .child → n.broadcaster.receivers.get? c.id = none
  sound : n.broadcaster.Sound
  children : ∀ c ∈ accounts, c.relationship = .child → ∃ a, childAddress home c.id = .ok a ∧
    n.table.get? a.toPrefix = some (.own a.toPrefix c.id secret)
  chosen : ∀ p, ¬ Startup.IsChildPrefix home accounts p → n.broadcaster.Chosen p

theorem Started.spread (hn₀ : ofSettings s accounts secret id = .ok n₀)
    (hhome : s.operatorAddress = some home) (hquiet : QuietChildren accounts)
    (h : Started n₀ n) : Spread home accounts secret n := by
  obtain ⟨m, hm, hrun⟩ := h
  obtain ⟨rfl, hids⟩ := ofSettings_ok hn₀
  cases hm
  obtain ⟨enlisted, hinv, hchosen⟩ := Startup.chosen_run hhome rfl rfl hids hrun
  obtain rfl : accounts = enlisted := hinv.configured.trans (List.append_nil _)
  refine ⟨fun c hc hchild => ?_, hinv.sound, fun c hc hchild => ?_, hchosen⟩
  · exact hinv.receivers_eq_none hids hc (hears_of_child _ hchild (hquiet c hc hchild))
  · obtain ⟨a, ha, hroute⟩ := hinv.children c hc hchild
    exact ⟨a, ha, hroute (hears_of_child _ hchild (hquiet c hc hchild))⟩

namespace Spread

/-- A route is a child's own one, or has been learned from its next hop. -/
theorem entry_cases (h : Spread home accounts secret n) {e : Route}
    (he : n.table.get? p = some e) :
    (∃ c ∈ accounts, c.relationship = .child ∧ ∃ a, childAddress home c.id = .ok a ∧
        p = a.toPrefix ∧ e = .own a.toPrefix c.id secret) ∨
      n.broadcaster.Learned e.nextHop p e := by
  by_cases hp : Startup.IsChildPrefix home accounts p
  · obtain ⟨c, hc, hchild, a, ha, rfl⟩ := hp
    obtain ⟨a', ha', hroute⟩ := h.children c hc hchild
    obtain rfl : a = a' := Except.ok.inj (ha.symm.trans ha')
    exact Or.inl ⟨c, hc, hchild, a, ha, rfl, Option.some.inj (he.symm.trans hroute)⟩
  · exact Or.inr ((h.chosen p hp).backed e he)

theorem exists_entry (h : Spread home accounts secret n) {x : AccountId} {e : Route}
    (he : n.broadcaster.Learned x p e) : ∃ e, n.table.get? p = some e := by
  by_cases hp : Startup.IsChildPrefix home accounts p
  · obtain ⟨c, hc, hchild, a, ha, rfl⟩ := hp
    obtain ⟨a', ha', hroute⟩ := h.children c hc hchild
    obtain rfl : a = a' := Except.ok.inj (ha.symm.trans ha')
    exact ⟨_, hroute⟩
  · obtain ⟨e', he', -⟩ := (h.chosen p hp).best x e he
    exact ⟨e', he'⟩

theorem keyed (h : Spread home accounts secret n) : n.table.Keyed := by
  intro p e he
  rcases h.entry_cases he with ⟨c, -, -, a, -, rfl, rfl⟩ | hlearned
  · rfl
  · exact (hlearned.sound h.sound).1

theorem resolve_iff (h : Spread home accounts secret n) (hc : c ∈ accounts)
    (hchild : c.relationship = .child) (hbase : childAddress home c.id = .ok base)
    (hids : (accounts.map AccountSettings.id).Nodup) (ha : base.toPrefix.Matches a) :
    n.table.resolve a = some c.id ↔
      (∀ c' ∈ accounts, c'.relationship = .child → ∀ b, childAddress home c'.id = .ok b →
        base.toPrefix.Covers b.toPrefix → b.toPrefix.Matches a → c' = c) ∧
      ∀ x q e, n.broadcaster.Learned x q e → base.toPrefix.Covers q → q.Matches a →
        q = base.toPrefix := by
  have hown : n.table.get? base.toPrefix = some (.own base.toPrefix c.id secret) := by
    obtain ⟨b, hb, hroute⟩ := h.children c hc hchild
    obtain rfl : base = b := Except.ok.inj (hbase.symm.trans hb)
    exact hroute
  have hbest := fun e => ForwardingTable.best?_eq_some_iff (a := a) (e := e) h.keyed
  constructor
  · intro hresolve
    obtain ⟨e, he, hhop⟩ := Option.map_eq_some_iff.mp hresolve
    obtain ⟨hget, -, hcovers⟩ := (hbest e).mp he
    have htarget : e.target = base.toPrefix := by
      rcases h.entry_cases hget with ⟨c', hc', -, b, hb, hp, rfl⟩ | ⟨r, hr, -⟩
      · obtain rfl : c' = c := List.inj_on_of_nodup_map hids hc' hc hhop
        rw [hp, Except.ok.inj (hb.symm.trans hbase)]
      · rw [hhop, h.quiet c hc hchild] at hr
        cases hr
    rw [htarget] at hcovers
    constructor
    · intro c' hc' hchild' b hb hunder hmatch
      obtain ⟨b', hb', hroute⟩ := h.children c' hc' hchild'
      obtain rfl : b = b' := Except.ok.inj (hb.symm.trans hb')
      have heq := (hcovers _ _ hroute hmatch).antisymm hunder
      exact List.inj_on_of_nodup_map hids hc' hc (childAddress_inj hb hbase heq)
    · intro x q e' hlearned hunder hmatch
      obtain ⟨e'', he''⟩ := h.exists_entry hlearned
      exact (hcovers q e'' he'' hmatch).antisymm hunder
  · rintro ⟨hchildren, hlearned⟩
    obtain ⟨e, he⟩ := (ForwardingTable.exists_best?_iff h.keyed).mpr ⟨_, _, hown, ha⟩
    obtain ⟨hget, hmatch, hcovers⟩ := (hbest e).mp he
    have hunder := hcovers _ _ hown ha
    refine Option.map_eq_some_iff.mpr ⟨e, he, ?_⟩
    -- The deepest route is a child's own one or a learned one, and none of these is deeper.
    rcases h.entry_cases hget with ⟨c', hc', hchild', b, hb, hp, rfl⟩ | hoffer
    · exact congrArg AccountSettings.id (hchildren c' hc' hchild' b hb (hp ▸ hunder) (hp ▸ hmatch))
    · rw [hlearned _ _ e hoffer hunder hmatch, hown] at hget
      exact (congrArg Route.nextHop (Option.some.inj hget)).symm

end Spread

/-- As long as no routes are received from children, an address at or below a child's own leads to
the child, just if neither another child has its own address between the two, nor a neighbour offers
a prefix there. -/
theorem resolve_child_iff (hn₀ : ofSettings s accounts secret id = .ok n₀)
    (hhome : s.operatorAddress = some home) (hquiet : QuietChildren accounts)
    (hn : Started n₀ n) (hc : c ∈ accounts) (hchild : c.relationship = .child) :
    ∃ base, childAddress home c.id = .ok base ∧ ∀ arrivals a, base.toPrefix.Matches a →
      let n' := n.receiveAll arrivals
      (n'.table.resolve a = some c.id ↔
        (∀ c' ∈ accounts, c'.relationship = .child → ∀ b, childAddress home c'.id = .ok b →
          base.toPrefix.Covers b.toPrefix → b.toPrefix.Matches a → c' = c) ∧
        ∀ x q e, n'.broadcaster.Learned x q e → base.toPrefix.Covers q → q.Matches a →
          q = base.toPrefix) := by
  obtain ⟨base, hbase, -⟩ := (hn.spread hn₀ hhome hquiet).children c hc hchild
  refine ⟨base, hbase, fun arrivals a ha => ?_⟩
  exact ((hn.receiveAll arrivals).spread hn₀ hhome hquiet).resolve_iff hc hchild hbase
    (ofSettings_ok hn₀).2 ha

/-! ### A node with children -/

/-- The node after its accounts have been put into operation, one after the other. -/
def enlistAll (n : Node) (accounts : List AccountSettings) : Node :=
  accounts.foldl (fun n account => (n.enlist account ⟨0⟩ (.plain 0)).1) n

theorem run_enlistAll (hop : n.operator = some home)
    (hchildren : ∀ c ∈ accounts, c.relationship = .child → ∃ a, childAddress home c.id = .ok a) :
    Relation.ReflTransGen Startup.Step ⟨n, accounts⟩ ⟨n.enlistAll accounts, []⟩ := by
  induction accounts generalizing n with
  | nil => exact .refl
  | cons account accounts ih =>
    obtain ⟨n₁, h₁⟩ := exists_enlist hop (hchildren account List.mem_cons_self) ⟨0⟩ (.plain 0)
    have hrest : n.enlistAll (account :: accounts) = n₁.enlistAll accounts :=
      congrArg (fun m => enlistAll m.1 accounts) h₁
    rw [hrest]
    exact .head (.enlist ⟨0⟩ (.plain 0) h₁) (ih ((enlist_ok hop h₁).1.trans hop) fun c hc =>
      hchildren c (List.mem_cons_of_mem _ hc))

namespace Household

def house : Address := ⟨"example.a", by decide +kernel⟩

def bob : AccountSettings := .plain ⟨"bob", by decide +kernel⟩ .child .loopback

/-- A child whose id goes on where the other one's ends. -/
def bobX : AccountSettings := .plain ⟨"bob.x", by decide +kernel⟩ .child .loopback

def alice : AccountSettings := .plain ⟨"alice", by decide +kernel⟩ .peer .loopback

def bobAddress : Address := ⟨"example.a.bob", by decide +kernel⟩

def belowBob : AddressPrefix := ⟨"example.a.bob.z", by decide +kernel⟩

/-- A neighbour offers a prefix below the address of `bob`. -/
def offer : Prepare :=
  (RouteUpdate.first (.plain 1) [.plain belowBob []]).toPrepare ⟨0⟩

/-- A node with these accounts before it starts. -/
def idle (accounts : List AccountSettings) : Node where
  operator := some house
  configured := accounts
  accounts := .ofAccounts accounts
  sources := [.static (.ofRoutes []), .learned]
  broadcaster := { settings := {}, table := .fresh (.plain 2) }

def started (accounts : List AccountSettings) : Node :=
  { idle accounts with started := true }.enlistAll accounts

theorem ofSettings_idle (h : firstDuplicate? [] accounts = none) :
    ofSettings { operatorAddress := some house } accounts [] (.plain 2) = .ok (idle accounts) := by
  unfold ofSettings
  rw [h]
  rfl

theorem started_idle
    (h : ∀ c ∈ accounts, c.relationship = .child → ∃ a, childAddress house c.id = .ok a) :
    Started (idle accounts) (started accounts) :=
  ⟨_, rfl, run_enlistAll rfl h⟩

theorem childAddress_bob : childAddress house bob.id = .ok bobAddress := by decide +kernel

theorem childAddress_bobX :
    childAddress house bobX.id = .ok ⟨"example.a.bob.x", by decide +kernel⟩ := by decide +kernel

theorem started_bob_alice : Started (idle [bob, alice]) (started [bob, alice]) := by
  refine started_idle fun c hc hchild => ?_
  rcases List.mem_pair.mp hc with rfl | rfl
  · exact ⟨_, childAddress_bob⟩
  · cases hchild

theorem started_bob_bobX : Started (idle [bob, bobX]) (started [bob, bobX]) := by
  refine started_idle fun c hc _ => ?_
  rcases List.mem_pair.mp hc with rfl | rfl
  · exact ⟨_, childAddress_bob⟩
  · exact ⟨_, childAddress_bobX⟩

theorem learned_offer {x : AccountId} {q : AddressPrefix} {e : Route}
    (h : ((started [bob, alice]).receiveAll [(⟨0⟩, alice.id, offer)]).broadcaster.Learned x q e) :
    q = belowBob :=
  Broadcaster.forall_learned (P := (· = belowBob)) (by decide +kernel) h

end Household

open Household

/-- After a neighbour's offer below a child's address, addresses beside what it offers still lead to
the child. -/
theorem resolve_child_iff_beside :
    ∃ (n : Node) (a : Address),
      ofSettings { operatorAddress := some house } [bob, alice] [] (.plain 2)
        = .ok (idle [bob, alice]) ∧
      QuietChildren [bob, alice] ∧ Started (idle [bob, alice]) n ∧ bob.relationship = .child ∧
      bobAddress.toPrefix.Matches a ∧
      (n.receiveAll [(⟨0⟩, alice.id, offer)]).table.routes.size = 2 ∧
      (n.receiveAll [(⟨0⟩, alice.id, offer)]).table.resolve a = some bob.id := by
  have hidle := @ofSettings_idle [bob, alice] (by decide +kernel)
  have hquiet : QuietChildren [bob, alice] := by
    unfold QuietChildren
    decide
  obtain ⟨base, hbase, hiff⟩ := resolve_child_iff hidle rfl hquiet started_bob_alice
    List.mem_cons_self rfl
  obtain rfl : base = bobAddress := Except.ok.inj (hbase.symm.trans childAddress_bob)
  have hmatch : bobAddress.toPrefix.Matches ⟨"example.a.bob.y", by decide +kernel⟩ := by
    decide +kernel
  refine ⟨_, _, hidle, hquiet, started_bob_alice, rfl, hmatch, by decide +kernel,
    (hiff [(⟨0⟩, alice.id, offer)] _ hmatch).mpr ⟨fun c hc hchild _ _ _ _ => ?_,
      fun x q e hlearned _ hq => ?_⟩⟩
  · rcases List.mem_pair.mp hc with rfl | rfl
    · rfl
    · cases hchild
  · rw [learned_offer hlearned] at hq
    exact absurd hq (by decide +kernel)

/-- Packets for the address do not reach the child, although it is at or below the child's own. -/
def Diverts (accounts : List AccountSettings) (arrivals : List (Instant × AccountId × Prepare))
    (c : AccountSettings) (a : Address) : Prop :=
  ∃ (s : ConnectorSettings) (n₀ n : Node) (home base : Address),
    ofSettings s accounts [] (.plain 2) = .ok n₀ ∧ s.operatorAddress = some home ∧
    QuietChildren accounts ∧ Started n₀ n ∧ c ∈ accounts ∧ c.relationship = .child ∧
    childAddress home c.id = .ok base ∧ base.toPrefix.Matches a ∧
    (n.receiveAll arrivals).table.resolve a ≠ some c.id

/-- Another child's address and what a peer offers can each divert packets from a child. -/
theorem resolve_child_diverted :
    Diverts [bob, bobX] [] bob ⟨"example.a.bob.x", by decide +kernel⟩ ∧
      alice.relationship = .peer ∧
      Diverts [bob, alice] [(⟨0⟩, alice.id, offer)] bob
        ⟨"example.a.bob.z.q", by decide +kernel⟩ := by
  refine ⟨?_, rfl, ?_⟩
  · refine ⟨_, _, _, _, _, ofSettings_idle (by decide +kernel), rfl, ?_, started_bob_bobX,
      List.mem_cons_self, rfl, childAddress_bob, by decide +kernel, by decide +kernel⟩
    unfold QuietChildren
    decide
  · refine ⟨_, _, _, _, _, ofSettings_idle (by decide +kernel), rfl, ?_, started_bob_alice,
      List.mem_cons_self, rfl, childAddress_bob, by decide +kernel, by decide +kernel⟩
    unfold QuietChildren
    decide

end Node

end IlpConnector
