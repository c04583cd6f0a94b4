import IlpConnector.Proofs.Startup

/-!
# The own routes to children

The own route of a child stays through all that neighbours tell, just if no routes are received from
the child (`Node.child_route_iff`).  A child that does tell about routes takes its own route away
with the first word about another table: whatever leads to the child is dropped, and nothing brings
the own route back.
-/

namespace IlpConnector

/-- The id of one octet throughout. -/
def TableId.plain (o : UInt8) : TableId := ⟨Octets.replicate 16 o⟩

theorem TableId.exists_plain_ne (id : TableId) : ∃ o : UInt8, (o = 0 ∨ o = 1) ∧ id ≠ plain o := by
  by_cases h : id = plain 0
  · exact ⟨1, Or.inr rfl, h ▸ by decide⟩
  · exact ⟨0, Or.inl rfl, h⟩

namespace RouteUpdate

/-- An update that tells nothing of a table. -/
def blank (id : TableId) : RouteUpdate where
  tableId := id
  currentEpoch := 0
  fromEpoch := 0
  toEpoch := 0
  holdDown := 0
  speaker := .unsetOperator
  announced := []
  withdrawn := []

/-- A packet with such an update. -/
def blankPacket (o : UInt8) : Prepare := (blank (.plain o)).toPrepare ⟨0⟩

theorem destination_blankPacket (o : UInt8) : (blankPacket o).destination = updateDestination := rfl

theorem ofPrepare_blankPacket {o : UInt8} (ho : o = 0 ∨ o = 1) :
    ofPrepare ⟨0⟩ (blankPacket o) = .ok (blank (.plain o)) := by
  rcases ho with rfl | rfl <;> decide +kernel

/-- A first update about a table, with these offers. -/
def first (id : TableId) (announced : List Announcement) : RouteUpdate where
  tableId := id
  currentEpoch := 1
  fromEpoch := 0
  toEpoch := 1
  holdDown := 0
  speaker := .unsetOperator
  announced := announced
  withdrawn := []

end RouteUpdate

/-- The offer of a prefix along a path. -/
def Announcement.plain (target : AddressPrefix) (path : List Address) : Announcement :=
  ⟨target, path, Octets.replicate 32 0, []⟩

namespace Node

variable {n₀ n : Node} {s : ConnectorSettings} {accounts : List AccountSettings} {secret : Bytes}
  {id : TableId} {home : Address}

/-- The own route of a child stays whatever arrives, just if no routes are received from the child,
so that a child from which routes are received can take it away. -/
theorem child_route_iff (hn₀ : ofSettings s accounts secret id = .ok n₀)
    (hhome : s.operatorAddress = some home) (hn : Started n₀ n) {c : AccountSettings}
    (hc : c ∈ accounts) (hchild : c.relationship = .child) :
    ∃ a, childAddress home c.id = .ok a ∧
      ((∀ arrivals, (n.receiveAll arrivals).table.get? a.toPrefix
          = some (.own a.toPrefix c.id secret)) ↔
        ¬ (s.routing.broadcastEnabled = true ∧ c.receivesRoutes = true)) := by
  obtain ⟨m, -, hsettings, hinv⟩ := hn.inv hn₀ hhome
  obtain ⟨a, ha, -⟩ := hinv.children c hc hchild
  have hhears : ∀ m : Node, m.broadcaster.settings = s.routing →
      (m.hears c = true ↔ s.routing.broadcastEnabled = true ∧ c.receivesRoutes = true) := by
    intro m hm
    rw [hears, hm, Bool.and_eq_true]
  refine ⟨a, ha, fun hstays hheard => ?_, fun hnot arrivals => ?_⟩
  · obtain ⟨r, hr⟩ := (hinv.receivers c.id).mpr ⟨c, hc, rfl, (hhears m hsettings).mpr hheard⟩
    obtain ⟨o, ho, hid⟩ := r.tableId.exists_plain_ne
    have hroute := hstays [(⟨0⟩, c.id, RouteUpdate.blankPacket o)]
    exact nextHop_ne_of_newTable hinv.sound hr (RouteUpdate.destination_blankPacket o)
      (RouteUpdate.ofPrepare_blankPacket ho) hid rfl hroute rfl
  · obtain ⟨m', hsecret', hsettings', hinv'⟩ := (hn.receiveAll arrivals).inv hn₀ hhome
    obtain ⟨a', ha', hroute⟩ := hinv'.children c hc hchild
    obtain rfl : a = a' := Except.ok.inj (ha.symm.trans ha')
    rw [← hhears m' hsettings', Bool.not_eq_true] at hnot
    rw [← hsecret']
    exact hroute hnot

/-- Beside a peer, a child that tells nothing about routes. -/
theorem child_route_iff_quiet :
    ∃ (s : ConnectorSettings) (accounts : List AccountSettings) (n₀ n : Node) (home a : Address)
      (c : AccountSettings),
      ofSettings s accounts [] (.plain 2) = .ok n₀ ∧ s.operatorAddress = some home ∧
      Started n₀ n ∧ c ∈ accounts ∧ c.relationship = .child ∧ c.receivesRoutes = false ∧
      childAddress home c.id = .ok a ∧
      ∀ arrivals, (n.receiveAll arrivals).table.get? a.toPrefix
        = some (.own a.toPrefix c.id []) := by
  let home : Address := ⟨"example.a", by decide +kernel⟩
  let s : ConnectorSettings := { operatorAddress := some home }
  let alice : AccountSettings := .plain ⟨"alice", by decide +kernel⟩ .peer .loopback
  let bob : AccountSettings := .plain ⟨"bob", by decide +kernel⟩ .child .loopback
  have hdup : firstDuplicate? [] [alice, bob] = none := by decide +kernel
  have haddress : childAddress home bob.id = .ok ⟨"example.a.bob", by decide +kernel⟩ := by
    decide +kernel
  obtain ⟨n₀, hn₀⟩ : ∃ n₀, ofSettings s [alice, bob] [] (.plain 2) = .ok n₀ := by
    unfold ofSettings
    rw [hdup]
    exact ⟨_, rfl⟩
  obtain ⟨n, hn⟩ := exists_started hn₀ rfl fun c hc hchild => by
    rcases List.mem_pair.mp hc with rfl | rfl
    · cases hchild
    · exact ⟨_, haddress⟩
  have hbob : bob ∈ [alice, bob] := List.mem_cons_of_mem _ List.mem_cons_self
  obtain ⟨a, ha, hiff⟩ := child_route_iff hn₀ rfl hn hbob rfl
  exact ⟨s, [alice, bob], n₀, n, home, a, bob, hn₀, rfl, hn, hbob, rfl, rfl, ha,
    hiff.mpr fun h => by cases h.2⟩

/-- A child from which routes are received loses its route to one packet that tells of no route. -/
theorem child_route_lost :
    ∃ (s : ConnectorSettings) (c : AccountSettings) (n₀ n : Node) (home a : Address)
      (arrivals : List (Instant × AccountId × Prepare)),
      ofSettings s [c] [] (.plain 2) = .ok n₀ ∧ s.operatorAddress = some home ∧ Started n₀ n ∧
      c.relationship = .child ∧ childAddress home c.id = .ok a ∧
      n.table.get? a.toPrefix = some (.own a.toPrefix c.id []) ∧
      (n.receiveAll arrivals).table.get? a.toPrefix ≠ some (.own a.toPrefix c.id []) := by
  let home : Address := ⟨"example.a", by decide +kernel⟩
  let s : ConnectorSettings := { operatorAddress := some home }
  let bob : AccountSettings :=
    { AccountSettings.plain ⟨"bob", by decide +kernel⟩ .child .loopback with
      receiveRoutes := some true }
  let a : Address := ⟨"example.a.bob", by decide +kernel⟩
  let n₀ : Node :=
    { operator := some home
      configured := [bob]
      accounts := .ofAccounts [bob]
      sources := [.static (.ofRoutes []), .learned]
      broadcaster := { settings := {}, table := .fresh (.plain 2) } }
  have hn₀ : ofSettings s [bob] [] (.plain 2) = .ok n₀ := rfl
  have haddress : childAddress home bob.id = .ok a := by decide +kernel
  obtain ⟨n, hn⟩ := exists_enlist (n := { n₀ with started := true }) rfl
    (fun _ => ⟨a, haddress⟩) ⟨0⟩ (.plain 0)
  have hstarted : Started n₀ n := ⟨_, rfl, .single (.enlist ⟨0⟩ (.plain 0) hn)⟩
  obtain ⟨-, -, -, hrec, ⟨hne, -⟩ | ⟨a', ha', htable⟩⟩ := enlist_ok rfl hn
  · exact absurd rfl hne
  obtain rfl : a = a' := Except.ok.inj (haddress.symm.trans ha')
  obtain ⟨_, -, -, hinv⟩ := hstarted.inv hn₀ rfl
  have hr : n.broadcaster.receivers.get? bob.id
      = some { peer := bob.id, link := ⟨0⟩, serial := 0, tableId := .plain 0 } := by
    rw [hrec, Broadcaster.get?_receivers_register]
    exact if_pos ⟨rfl, rfl, rfl⟩
  refine ⟨s, bob, n₀, n, home, a, [(⟨0⟩, bob.id, RouteUpdate.blankPacket 1)], hn₀, rfl, hstarted,
    rfl, haddress, ?_, fun he => ?_⟩
  · rw [htable, ForwardingTable.get?_set]
    exact if_pos rfl
  · exact nextHop_ne_of_newTable hinv.sound hr (RouteUpdate.destination_blankPacket 1)
      (RouteUpdate.ofPrepare_blankPacket (Or.inr rfl)) (by decide) rfl he rfl

end Node

end IlpConnector
